import Mathlib.Logic.Function.Basic
import NewsFlash.Library.InFlight
import NewsFlash.Library.Machine
import NewsFlash.Models.Authentication

/-!
# Accounts that the sign-up leaves behind

The sign-up creates the account and then writes its document twice. Any of its
requests may fail, and the process may end before an answer arrives, so the
document may be missing or hold one of the two writes only. Later launches and
logins read the document and cast every field. `SignedUp` says exactly which
accounts they can serve.
-/

namespace NewsFlash.Accounts.SignUp

open NewsFlash.Library NewsFlash.Models NewsFlash.Models.Authentication

/-! ## The process and the service -/

/-- The stored profile and the signed-in user outlive the process; `usable` says
whether every launch and every login so far was served. -/
structure World where
  app : App := {}
  inFlight : List AuthRequest := []
  accounts : List User := []
  documents : Uid → Option UserDocument := fun _ => none
  usable : Bool := true

/-- The service serves a request of the sign-up by refusing it or by performing it;
`uid` is the one of a new account. An answer that is not delivered finds the process
gone. A launch or a login comes with the answers it gets. -/
inductive Event where
  | signUpBasics (firstName lastName email password : String) (country : Country)
  | signUpInterests (interests : List String)
  | serve (i : Nat) (outcome : Except String Uid) (delivered : Bool)
  | launch (fetched : Bool)
  | signOut (ok : Bool)
  | login (email password : String) (signedIn : Except String User) (fetched : Bool)

def SceneDelegate.willConnectTo {α : Type} : Callback App AuthRequest α Unit := do
  let currentUser ← Callback.read App.currentUser
  if currentUser.isSome then updateUserData

/-- The stored profile is the document's, with the e-mail of the sign-in. -/
def Stored (document : UserDocument) (email : String) (defaults : Defaults) : Prop :=
  defaults .firstname = document.firstname ∧ defaults .lastname = document.lastname ∧
    defaults .country = document.country ∧ defaults .interests = document.interests ∧
    defaults .email = some (.string email)

instance (document : UserDocument) (email : String) (defaults : Defaults) :
    Decidable (Stored document email defaults) :=
  inferInstanceAs (Decidable (_ ∧ _))

/-- A login ran to its end and called its completion; where it reported success, it
stored the account's profile. -/
def LoginServed (saved : Option UserDocument) (email : String)
    (r : Option Unit × Trace App AuthRequest (Option String)) : Prop :=
  Callback.AnswersOnce r ∧
    (r.2.completed = [none] → ∃ document ∈ saved, Stored document email r.2.store.defaults)

instance (saved : Option UserDocument) (email : String)
    (r : Option Unit × Trace App AuthRequest (Option String)) :
    Decidable (LoginServed saved email r) :=
  inferInstanceAs (Decidable (_ ∧ (_ → _)))

namespace World

def react (w : World) (code : Callback App AuthRequest Unit Unit) : Option World :=
  match code.exec w.app with
  | (some (), t) => some { w with app := t.store, inFlight := w.inFlight ++ t.issued }
  | (none, _) => none

/-- What the service does for a request of the sign-up: `setData` replaces the
document, and with `merge` it keeps the other fields. -/
def perform (w : World) (newUid : Uid) : AuthRequest → Option World
  | .createUser _ _ email _ _ =>
      if w.accounts.any (·.uid = newUid) then none
      else some { w with accounts := w.accounts ++ [⟨newUid, some email⟩] }
  | .setBasics uid firstName lastName _ country =>
      let document : UserDocument :=
        { firstname := some (.string firstName)
          lastname := some (.string lastName)
          country := some (.dictionary country) }
      some { w with documents := Function.update w.documents uid (some document) }
  | .mergeInterests uid interests =>
      let document : UserDocument :=
        { (w.documents uid).getD {} with interests := some (.strings interests) }
      some { w with documents := Function.update w.documents uid (some document) }
  | _ => none

def answer (outcome : Except String Uid) : AuthRequest → Service
  | .createUser _ _ email _ _ => { created := outcome.map fun uid => ⟨uid, some email⟩ }
  | _ => { error := !outcome.isOk }

def served (w : World) (outcome : Except String Uid) (request : AuthRequest) : Option World :=
  match outcome with
  | .error _ => some w
  | .ok newUid => w.perform newUid request

def deliver (w : World) (outcome : Except String Uid) (request : AuthRequest) : Option World :=
  let service := answer outcome request
  let currentUser := service.currentUser request w.app.currentUser
  { w with app := { w.app with currentUser := currentUser } }.react (closure service request)

def step (w : World) : Event → Option World
  | .signUpBasics firstName lastName email password country =>
      w.react (Authentication.signUpBasics firstName lastName email password country)
  | .signUpInterests interests => w.react (Authentication.signUpInterests interests)
  | .serve i outcome delivered =>
      (pick w.inFlight i).bind fun (request, rest) =>
        ({ w with inFlight := rest }.served outcome request).bind fun w =>
          if delivered then w.deliver outcome request else some w
  | .launch fetched =>
      let saved := w.app.currentUser.bind fun user => w.documents user.uid
      let service : Service := { document := if fetched then saved else none }
      let r := (service.exchange SceneDelegate.willConnectTo).exec { w.app with news := {} }
      some { w with app := r.2.store, inFlight := [], usable := w.usable && r.1.isSome }
  | .signOut ok => w.react (Authentication.signOut (fun _ => pure ()) ok)
  | .login email password signedIn fetched =>
      if ∀ user ∈ signedIn.toOption, user ∈ w.accounts then
        let saved := signedIn.toOption.bind fun user => w.documents user.uid
        let service : Service := { signedIn, document := if fetched then saved else none }
        let currentUser := service.currentUser (.signIn email password) w.app.currentUser
        let r := (service.exchange (Authentication.login email password)).exec
          { w.app with currentUser := currentUser }
        some { w with app := r.2.store, usable := w.usable && decide (LoginServed saved email r) }
      else none

end World

def machine : Machine World Event where
  step := World.step

/-- Both writes of the sign-up have reached the document. -/
def Complete (document : UserDocument) : Prop :=
  document.firstname.isSome ∧ document.interests.isSome

instance (document : UserDocument) : Decidable (Complete document) :=
  inferInstanceAs (Decidable (_ ∧ _))

/-- A launch of a signed-in user fetches no document or a complete one; a login is
refused, or fetches a complete one. -/
def SignedUp (w : World) : Event → Prop
  | .launch fetched => fetched = true → ∀ user ∈ w.app.currentUser,
      ∀ document ∈ w.documents user.uid, Complete document
  | .login _ _ signedIn fetched => ∀ user ∈ signedIn.toOption,
      fetched = true ∧ ∃ document ∈ w.documents user.uid, Complete document
  | _ => True

instance (w : World) : (e : Event) → Decidable (SignedUp w e)
  | .launch _ => inferInstanceAs (Decidable (_ → _))
  | .login .. => inferInstanceAs (Decidable (∀ _ ∈ _, _ ∧ _))
  | .signUpBasics .. | .signUpInterests .. | .serve .. | .signOut .. =>
      inferInstanceAs (Decidable True)

/-! ## What the sign-up has written of a document -/

/-- Each of the two writes, or not. -/
structure Progress where
  basics : Option (String × String × Country)
  interests : Option (List String)

namespace Progress

def document (progress : Progress) : UserDocument where
  firstname := progress.basics.map fun basics => .string basics.1
  lastname := progress.basics.map fun basics => .string basics.2.1
  country := progress.basics.map fun basics => .dictionary basics.2.2
  interests := progress.interests.map .strings

variable {progress : Progress}

theorem complete_iff :
    Complete progress.document ↔ progress.basics.isSome ∧ progress.interests.isSome := by
  simp [Complete, document]

theorem profile_isSome : progress.document.profile.isSome ↔ Complete progress.document := by
  rw [complete_iff]
  obtain ⟨_ | basics, _ | interests⟩ := progress <;> simp [document, UserDocument.profile,
    Value.asString, Value.asDictionary, Value.asStrings]

theorem refresh_isSome {user : User} (hemail : user.email.isSome) :
    (progress.document.refresh (some user)).isSome ↔ Complete progress.document := by
  obtain ⟨email, hemail⟩ := Option.isSome_iff_exists.mp hemail
  rw [complete_iff]
  obtain ⟨_ | basics, _ | interests⟩ := progress <;> simp [document, UserDocument.refresh,
    Value.asDictionary, Value.asStrings, hemail]

theorem stored_profile {profile : Profile} (email : String)
    (h : progress.document.profile = some profile) :
    Stored progress.document email (profile.defaults email) := by
  obtain ⟨_ | basics, _ | interests⟩ := progress
  · cases h
  · cases h
  · cases h
  · obtain rfl := Option.some.inj h
    exact ⟨rfl, rfl, rfl, rfl, rfl⟩

end Progress

/-! ## Serving a login and a launch -/

section Served

variable {saved : Option UserDocument} {app : App}

theorem loginServed_onDocument (fetched : Bool) (email : String)
    (hsaved : ∀ document ∈ saved, ∃ progress : Progress, progress.document = document) :
    LoginServed saved email (login.onDocument Callback.complete email
      (if fetched then saved else none) ⟨app, [], []⟩) ↔
      fetched = true ∧ ∃ document ∈ saved, Complete document := by
  have hmissing : ¬ LoginServed saved email
      (login.onDocument Callback.complete email none ⟨app, [], []⟩) := by
    rintro ⟨⟨-, hlength⟩, -⟩
    cases hlength
  cases fetched with
  | false => exact iff_of_false hmissing (by simp)
  | true =>
  cases saved with
  | none => exact iff_of_false hmissing (by simp)
  | some document =>
      obtain ⟨progress, rfl⟩ := hsaved document rfl
      simp only [if_true, true_and, Option.mem_some_iff, exists_eq_left']
      rw [← Progress.profile_isSome]
      cases hprofile : progress.document.profile with
      | none =>
          obtain ⟨_, htrap⟩ := login.onDocument_incomplete Callback.complete email hprofile
            ⟨app, [], []⟩
          refine iff_of_false ?_ (by simp)
          rintro ⟨⟨hsome, -⟩, -⟩
          rw [htrap] at hsome
          cases hsome
      | some profile =>
          rw [login.onDocument_complete Callback.complete email hprofile]
          refine iff_of_true ⟨⟨rfl, rfl⟩, fun _ => ?_⟩ rfl
          exact ⟨progress.document, rfl, Progress.stored_profile email hprofile⟩

theorem loginServed_iff {signedIn : Except String User} (email password : String) (fetched : Bool)
    (hsaved : ∀ document ∈ saved, ∃ progress : Progress, progress.document = document) :
    LoginServed saved email (Service.exchange
      { signedIn, document := if fetched then saved else none }
      (login email password) ⟨app, [], []⟩) ↔
      ∀ user ∈ signedIn.toOption, fetched = true ∧ ∃ document ∈ saved, Complete document := by
  rw [Service.login_exchange]
  cases signedIn with
  | error message =>
      refine iff_of_true ⟨⟨rfl, rfl⟩, ?_⟩ (by simp [Except.toOption])
      intro hcompleted
      cases hcompleted
  | ok user =>
      simp only [Except.toOption, Option.mem_some_iff, forall_eq']
      exact loginServed_onDocument fetched email hsaved

theorem login_currentUser {service : Service} (email password : String) :
    (service.exchange (login email password) ⟨app, [], []⟩).2.store.currentUser =
      app.currentUser := by
  rw [Service.login_exchange]
  cases service.signedIn with
  | error message => rfl
  | ok user =>
  cases service.document with
  | none => rfl
  | some document =>
  cases hprofile : document.profile with
  | none =>
      obtain ⟨_, htrap⟩ := login.onDocument_incomplete Callback.complete email hprofile
        ⟨app, [], []⟩
      simp only [htrap]
  | some profile =>
      simp only [login.onDocument_complete Callback.complete email hprofile]
      rfl

theorem launch_exchange {service : Service} :
    service.exchange SceneDelegate.willConnectTo ⟨app, [], []⟩ =
      match app.currentUser with
      | none => (some (), ⟨app, [], []⟩)
      | some _ => updateUserData.onDocument service.document ⟨app, [], []⟩ := by
  cases huser : app.currentUser with
  | none =>
      have hquiet : (SceneDelegate.willConnectTo : Callback App AuthRequest (Option String) Unit)
          ⟨app, [], []⟩ = (some (), ⟨app, [], []⟩) := by
        simp [SceneDelegate.willConnectTo, huser]
      rw [Service.exchange, Callback.answered_of_quiet rfl, Callback.answered_of_quiet rfl, hquiet]
      · rw [hquiet]
      · rw [Callback.answered_of_quiet rfl, hquiet]
        rw [hquiet]
  | some user =>
      have hstart : (SceneDelegate.willConnectTo : Callback App AuthRequest (Option String) Unit)
          ⟨app, [], []⟩ = updateUserData ⟨app, [], []⟩ := by
        simp [SceneDelegate.willConnectTo, huser]
      have hexchange : service.exchange SceneDelegate.willConnectTo ⟨app, [], []⟩ =
          service.exchange updateUserData ⟨app, [], []⟩ :=
        Callback.answered_congr (Callback.answered_congr hstart)
      rw [hexchange, Service.updateUserData_exchange huser, Callback.answered_of_quiet rfl]
      cases service.document with
      | none => rfl
      | some document =>
      cases hrefresh : document.refresh app.currentUser with
      | none =>
          obtain ⟨_, htrap⟩ := updateUserData.onDocument_incomplete
            (⟨app, [], []⟩ : Trace App AuthRequest (Option String)) hrefresh
          rw [htrap]
      | some refresh =>
          rw [updateUserData.onDocument_complete
            (⟨app, [], []⟩ : Trace App AuthRequest (Option String)) hrefresh]

theorem launchServed_iff (app : App) {documents : Uid → Option UserDocument} (fetched : Bool)
    (hemail : ∀ user ∈ app.currentUser, user.email.isSome)
    (hdocuments : ∀ uid, ∀ document ∈ documents uid,
      ∃ progress : Progress, progress.document = document) :
    (Service.exchange
      { document := if fetched then app.currentUser.bind fun user => documents user.uid else none }
      SceneDelegate.willConnectTo ⟨app, [], []⟩).1.isSome ↔
      (fetched = true → ∀ user ∈ app.currentUser,
        ∀ document ∈ documents user.uid, Complete document) := by
  rw [launch_exchange]
  cases huser : app.currentUser with
  | none => simp
  | some user =>
  cases fetched with
  | false => exact iff_of_true rfl (by simp)
  | true =>
  simp only [if_true, forall_true_left, Option.mem_some_iff, forall_eq', Option.bind_some]
  cases hdocument : documents user.uid with
  | none => exact iff_of_true rfl (by simp)
  | some document =>
      obtain ⟨progress, rfl⟩ := hdocuments user.uid document hdocument
      simp only [Option.mem_some_iff, forall_eq']
      rw [← Progress.refresh_isSome (hemail user huser), ← huser]
      cases hrefresh : progress.document.refresh app.currentUser with
      | none =>
          obtain ⟨_, htrap⟩ := updateUserData.onDocument_incomplete
            (⟨app, [], []⟩ : Trace App AuthRequest (Option String)) hrefresh
          exact iff_of_false (by simp [htrap]) (by simp)
      | some refresh =>
          have hrun := updateUserData.onDocument_complete
            (⟨app, [], []⟩ : Trace App AuthRequest (Option String)) hrefresh
          exact iff_of_true (by simp [hrun]) rfl

theorem launch_currentUser (app : App) {service : Service} :
    (service.exchange SceneDelegate.willConnectTo ⟨app, [], []⟩).2.store.currentUser =
      app.currentUser := by
  rw [launch_exchange]
  cases huser : app.currentUser with
  | none => exact huser
  | some user =>
  cases service.document with
  | none => exact huser
  | some document =>
  cases hrefresh : document.refresh app.currentUser with
  | none =>
      obtain ⟨_, htrap⟩ := updateUserData.onDocument_incomplete
        (⟨app, [], []⟩ : Trace App AuthRequest (Option String)) hrefresh
      simp only [htrap, huser]
  | some refresh =>
      have hrun := updateUserData.onDocument_complete
        (⟨app, [], []⟩ : Trace App AuthRequest (Option String)) hrefresh
      simp only [hrun, huser]

end Served

/-! ## What one step does -/

/-- Every document holds each write of the sign-up whole or not at all, and every
account has its e-mail. -/
structure World.WellFormed (w : World) : Prop where
  documents : ∀ uid, ∀ document ∈ w.documents uid,
    ∃ progress : Progress, progress.document = document
  accounts : ∀ user ∈ w.accounts, user.email.isSome
  currentUser : ∀ user ∈ w.app.currentUser, user.email.isSome

section Steps

variable {w w' : World}

theorem react_eq_some {code : Callback App AuthRequest Unit Unit} (h : w.react code = some w') :
    w' = { w with
      app := (code.exec w.app).2.store
      inFlight := w.inFlight ++ (code.exec w.app).2.issued } := by
  rw [World.react] at h
  split at h
  · next heq =>
      rw [heq]
      exact (Option.some.inj h).symm
  · cases h

theorem perform_frame {newUid : Uid} {request : AuthRequest}
    (h : w.perform newUid request = some w') : w'.app = w.app ∧ w'.usable = w.usable := by
  cases request with
  | signIn email password | loginDocument uid email | userData uid => cases h
  | createUser firstName lastName email password country =>
      simp only [World.perform] at h
      split at h
      · cases h
      · obtain rfl := Option.some.inj h
        exact ⟨rfl, rfl⟩
  | setBasics uid firstName lastName email country =>
      obtain rfl := Option.some.inj h
      exact ⟨rfl, rfl⟩
  | mergeInterests uid interests =>
      obtain rfl := Option.some.inj h
      exact ⟨rfl, rfl⟩

/-- A written document holds what it held before and the write. -/
theorem wellFormed_written {uid : Uid} {document : UserDocument} (hwf : w.WellFormed)
    (hdocument : ∃ progress : Progress, progress.document = document) :
    ({ w with documents := Function.update w.documents uid (some document) } :
      World).WellFormed := by
  refine ⟨?_, hwf.accounts, hwf.currentUser⟩
  intro uid' document' hmem
  by_cases huid : uid' = uid
  · subst huid
    change Function.update w.documents uid' (some document) uid' = some document' at hmem
    rw [Function.update_self] at hmem
    obtain rfl := Option.some.inj hmem
    exact hdocument
  · change Function.update w.documents uid (some document) uid' = some document' at hmem
    rw [Function.update_of_ne huid] at hmem
    exact hwf.documents uid' document' hmem

theorem wellFormed_perform {newUid : Uid} {request : AuthRequest} (hwf : w.WellFormed)
    (h : w.perform newUid request = some w') : w'.WellFormed := by
  cases request with
  | signIn email password | loginDocument uid email | userData uid => cases h
  | createUser firstName lastName email password country =>
      simp only [World.perform] at h
      split at h
      · cases h
      · obtain rfl := Option.some.inj h
        refine ⟨hwf.documents, ?_, hwf.currentUser⟩
        intro user hmem
        rcases List.mem_append.mp hmem with hmem | hmem
        · exact hwf.accounts user hmem
        · obtain rfl := List.mem_singleton.mp hmem
          rfl
  | setBasics uid firstName lastName email country =>
      obtain rfl := Option.some.inj h
      exact wellFormed_written hwf ⟨⟨some (firstName, lastName, country), none⟩, rfl⟩
  | mergeInterests uid interests =>
      obtain rfl := Option.some.inj h
      apply wellFormed_written hwf
      cases hdocument : w.documents uid with
      | none => exact ⟨⟨none, some interests⟩, rfl⟩
      | some document =>
          obtain ⟨progress, rfl⟩ := hwf.documents uid document hdocument
          exact ⟨⟨progress.basics, some interests⟩, rfl⟩

theorem answer_currentUser {outcome : Except String Uid} {current : Option User}
    (request : AuthRequest) (hcurrent : ∀ user ∈ current, user.email.isSome) :
    ∀ user ∈ (World.answer outcome request).currentUser request current, user.email.isSome := by
  intro user huser
  cases request with
  | createUser firstName lastName email password country =>
      cases outcome with
      | error message => exact hcurrent user huser
      | ok newUid =>
          obtain rfl := Option.some.inj huser
          rfl
  | signIn email password | loginDocument uid email | userData uid
  | setBasics uid firstName lastName email country | mergeInterests uid interests =>
      exact hcurrent user huser

theorem closure_currentUser (outcome : Except String Uid) (request : AuthRequest) (app : App) :
    ((closure (World.answer outcome request) request).exec app).2.store.currentUser =
      app.currentUser := by
  cases request <;> cases outcome <;> rfl

theorem wellFormed_react {code : Callback App AuthRequest Unit Unit} (hwf : w.WellFormed)
    (hcurrent : (code.exec w.app).2.store.currentUser = w.app.currentUser)
    (h : w.react code = some w') : w'.WellFormed ∧ w'.usable = w.usable := by
  obtain rfl := react_eq_some h
  refine ⟨⟨hwf.documents, hwf.accounts, ?_⟩, rfl⟩
  intro user huser
  apply hwf.currentUser user
  rwa [← hcurrent]

theorem wellFormed_served {outcome : Except String Uid} {request : AuthRequest}
    (hwf : w.WellFormed) (h : w.served outcome request = some w') :
    w'.WellFormed ∧ w'.usable = w.usable := by
  cases outcome with
  | error message =>
      obtain rfl := Option.some.inj h
      exact ⟨hwf, rfl⟩
  | ok newUid => exact ⟨wellFormed_perform hwf h, (perform_frame h).2⟩

theorem wellFormed_deliver {outcome : Except String Uid} {request : AuthRequest}
    (hwf : w.WellFormed) (h : w.deliver outcome request = some w') :
    w'.WellFormed ∧ w'.usable = w.usable := by
  have hsigned : ({ w with app := { w.app with currentUser :=
      (World.answer outcome request).currentUser request w.app.currentUser } } :
      World).WellFormed :=
    ⟨hwf.documents, hwf.accounts, answer_currentUser request hwf.currentUser⟩
  have hreact := wellFormed_react hsigned (closure_currentUser outcome request _) h
  exact hreact

theorem wellFormed_serve {i : Nat} {outcome : Except String Uid} {delivered : Bool}
    (hwf : w.WellFormed) (h : w.step (.serve i outcome delivered) = some w') :
    w'.WellFormed ∧ w'.usable = w.usable := by
  obtain ⟨⟨request, rest⟩, -, h⟩ := Option.bind_eq_some_iff.mp h
  obtain ⟨w₁, hserved, h⟩ := Option.bind_eq_some_iff.mp h
  obtain ⟨hwf₁, husable₁⟩ := wellFormed_served (w := { w with inFlight := rest })
    ⟨hwf.documents, hwf.accounts, hwf.currentUser⟩ hserved
  cases delivered with
  | false =>
      obtain rfl := Option.some.inj h
      exact ⟨hwf₁, husable₁⟩
  | true =>
      obtain ⟨hwf', husable'⟩ := wellFormed_deliver hwf₁ h
      exact ⟨hwf', husable'.trans husable₁⟩

theorem wellFormed_start {code : Callback App AuthRequest Unit Unit} (hwf : w.WellFormed)
    (hcode : (∃ firstName lastName email password country,
        code = signUpBasics firstName lastName email password country) ∨
      ∃ interests, code = signUpInterests interests)
    (h : w.react code = some w') : w'.WellFormed ∧ w'.usable = w.usable := by
  apply wellFormed_react hwf _ h
  rcases hcode with ⟨firstName, lastName, email, password, country, rfl⟩ | ⟨interests, rfl⟩
  · rfl
  · cases huser : w.app.currentUser <;> simp [signUpInterests, App.forcedCurrentUser_apply, huser]

theorem wellFormed_signOut {ok : Bool} (hwf : w.WellFormed)
    (h : w.step (.signOut ok) = some w') : w'.WellFormed ∧ w'.usable = w.usable := by
  obtain rfl := react_eq_some h
  refine ⟨⟨hwf.documents, hwf.accounts, ?_⟩, rfl⟩
  intro user huser
  cases ok with
  | true => cases huser
  | false => exact hwf.currentUser user huser

theorem wellFormed_launch {fetched : Bool} (hwf : w.WellFormed) (husable : w.usable = true)
    (h : w.step (.launch fetched) = some w') :
    w'.WellFormed ∧ (w'.usable = true ↔ SignedUp w (.launch fetched)) := by
  obtain rfl := Option.some.inj h
  constructor
  · refine ⟨hwf.documents, hwf.accounts, ?_⟩
    intro user huser
    apply hwf.currentUser user
    exact (launch_currentUser { w.app with news := {} }).symm.trans huser
  · simp only [husable, Bool.true_and]
    exact launchServed_iff { w.app with news := {} } fetched hwf.currentUser hwf.documents

theorem wellFormed_login {email password : String} {signedIn : Except String User}
    {fetched : Bool} (hwf : w.WellFormed) (husable : w.usable = true)
    (h : w.step (.login email password signedIn fetched) = some w') :
    w'.WellFormed ∧ (w'.usable = true ↔ SignedUp w (.login email password signedIn fetched)) := by
  simp only [World.step] at h
  split at h
  · next haccount =>
      obtain rfl := Option.some.inj h
      constructor
      · refine ⟨hwf.documents, hwf.accounts, ?_⟩
        intro user huser
        replace huser := (login_currentUser email password).symm.trans huser
        cases signedIn with
        | error message => exact hwf.currentUser user huser
        | ok signedInUser =>
            obtain rfl := Option.some.inj huser
            exact hwf.accounts signedInUser (haccount signedInUser rfl)
      · simp only [husable, Bool.true_and, decide_eq_true_eq]
        refine (loginServed_iff email password fetched ?_).trans ?_
        · intro document hdocument
          obtain ⟨user, -, hdocument⟩ := Option.bind_eq_some_iff.mp hdocument
          exact hwf.documents user.uid document hdocument
        · cases signedIn with
          | error message => simp [SignedUp, Except.toOption]
          | ok user => simp [SignedUp, Except.toOption]
  · cases h

/-- A step from a usable world leads to a usable one exactly when it meets a finished
sign-up. -/
theorem usable_step {e : Event} (hwf : w.WellFormed) (husable : w.usable = true)
    (h : machine.step w e = some w') :
    w'.WellFormed ∧ (w'.usable = true ↔ SignedUp w e) := by
  have hquiet : w'.WellFormed ∧ w'.usable = w.usable → SignedUp w e →
      w'.WellFormed ∧ (w'.usable = true ↔ SignedUp w e) := fun hw' he =>
    ⟨hw'.1, iff_of_true (hw'.2.trans husable) he⟩
  cases e with
  | signUpBasics firstName lastName email password country =>
      exact hquiet (wellFormed_start hwf (Or.inl ⟨_, _, _, _, _, rfl⟩) h) trivial
  | signUpInterests interests =>
      exact hquiet (wellFormed_start hwf (Or.inr ⟨_, rfl⟩) h) trivial
  | serve i outcome delivered => exact hquiet (wellFormed_serve hwf h) trivial
  | signOut ok => exact hquiet (wellFormed_signOut hwf h) trivial
  | launch fetched => exact wellFormed_launch hwf husable h
  | login email password signedIn fetched => exact wellFormed_login hwf husable h

end Steps

/-! ## Usable accounts -/

/-- **Sign-up.** In every run from an empty service, with any steps of the sign-up
failing and the process ending anywhere, every launch and every login is served exactly
as long as each of them meets a finished sign-up. -/
theorem accounts_usable {as : List Event} :
    machine.Always (fun w => w.usable = true) {} as ↔ machine.Meets SignedUp {} as := by
  have hempty : ({} : World).WellFormed := by
    constructor <;> simp
  exact machine.always_iff_meets (fun hwf husable h => (usable_step hwf husable h).1)
    (fun hwf husable h => (usable_step hwf husable h).2) hempty rfl

def interestsSkipped : List Event :=
  [.signUpBasics "Ada" "Reader" "ada@example.com" "Secret123" [("short", "bg")],
    .serve 0 (.ok "ada") true, .serve 0 (.ok "ada") true, .launch true]

theorem accounts_unusable :
    ¬ ∀ as : List Event, machine.Always (fun w => w.usable = true) {} as := by
  intro h
  have hends : (machine.run {} interestsSkipped).isSome := by decide +kernel
  have hunusable : ∀ w ∈ machine.run {} interestsSkipped, ¬ w.usable = true := by decide +kernel
  exact machine.not_always_of_run hends hunusable (h interestsSkipped)

end NewsFlash.Accounts.SignUp
