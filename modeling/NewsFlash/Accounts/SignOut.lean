import NewsFlash.Library.InFlight
import NewsFlash.Library.Machine
import NewsFlash.Models.Tabs

/-!
# The stored profile after a sign-out

`signOut` clears the stored profile once. Closures of requests that were issued
earlier run whenever their answers arrive, and the interests screen stores its
selection when its button has expanded; they write the same keys, and
`updateUserData`'s unwraps a user that may be gone. The completions capture their
screens as unowned, which may be gone as well, and the loaded tabs observe what is
written and may trap. `Harmless` says exactly which steps do no harm.
-/

namespace NewsFlash.Accounts.SignOut

open NewsFlash.Library NewsFlash.Models NewsFlash.Models.Authentication

/-! ## Sessions -/

/-- The process, with the requests in flight and the number of interests screens whose
button is expanding. It is quiet from a successful sign-out to the next login or sign-up. -/
structure Session where
  app : App
  tabs : Tabs := {}
  inFlight : List AuthRequest := []
  expanding : Nat := 0
  quiet : Bool := false
  trapped : Bool := false

inductive Operation where
  | login (email password : String)
  | updateUserData
  | signUpBasics (firstName lastName email password : String) (country : Country)
  | signUpInterests (interests : List String)

/-- An answer arrives, and a button has expanded, while the screen that waits for it is there or
has `gone`. -/
inductive Action where
  | start (operation : Operation)
  | signOut (ok : Bool)
  | removeUserInfo
  | load (tabs : Tabs)
  | deliver (i : Nat) (service : Service) (gone : Bool)
  | expanded (selectedInterests : List String) (gone : Bool)

def Operation.body : Operation → Callback App AuthRequest Unit Unit
  | login email password => Authentication.login email password
  | updateUserData => Authentication.updateUserData
  | signUpBasics firstName lastName email password country =>
      Authentication.signUpBasics firstName lastName email password country
  | signUpInterests interests => Authentication.signUpInterests interests

/-- Everything but `updateUserData` is a login or a step of the sign-up. -/
def Operation.isNew : Operation → Bool
  | updateUserData => false
  | _ => true

/-! ## The completions of the screens -/

/-- `[unowned self]` -/
def unownedSelf (gone : Bool) : Callback App AuthRequest Unit Unit :=
  if gone then Callback.trap else pure ()

/-- The completion of the screen that has asked. It makes the button of the interests screen
expand, and does nothing else that matters here. -/
def completion (gone : Bool) :
    AuthRequest → Option String → Callback App AuthRequest Unit Unit
  | .mergeInterests _ _, message => do
      unownedSelf gone
      SignUpInterestsViewController.onSignedUp message
  | _, _ => unownedSelf gone

def expanded [Observers] (gone : Bool) (selectedInterests : List String) :
    Callback App AuthRequest Unit Unit := do
  unownedSelf gone
  SignUpInterestsViewController.onExpanded selectedInterests

namespace Session

def defaults (s : Session) : Defaults := s.app.defaults

def react (s : Session) (code : Callback App AuthRequest Unit Unit) : Session :=
  let (result, t) := code.exec s.app
  { s with
    app := t.store
    inFlight := s.inFlight ++ t.issued
    expanding := s.expanding + t.completed.length
    trapped := result.isNone }

section Screens

/-! `parses` is `URL(string:)`. -/

variable (parses : String → Bool)

def observed (s : Session) (code : [Observers] → Callback App AuthRequest Unit Unit) : Session :=
  s.react (@code (s.tabs.observers parses))

def act (s : Session) : Action → Option Session
  -- The screens start an operation where it can start: it needs its user.
  | .start operation =>
      let s' := { s with quiet := s.quiet && !operation.isNew }.react operation.body
      if s'.trapped then none else some s'
  | .signOut ok =>
      let s' := s.observed parses (Authentication.signOut (fun _ => pure ()) ok)
      some { s' with quiet := s.quiet || ok }
  -- The profile screen clears once more when its button has stopped.
  | .removeUserInfo => some (s.observed parses App.removeUserInfo)
  | .load tabs => some { s with tabs }
  | .deliver i service gone => (pick s.inFlight i).map fun (request, rest) =>
      let currentUser := service.currentUser request s.app.currentUser
      { s with
        app := { s.app with currentUser := currentUser }
        inFlight := rest }.observed parses (service.answer (completion gone request) request)
  | .expanded selectedInterests gone =>
      if 0 < s.expanding then
        some ({ s with expanding := s.expanding - 1 }.observed parses
          (SignOut.expanded gone selectedInterests))
      else none

def step (s : Session) (a : Action) : Option Session :=
  if s.trapped then none else s.act parses a

end Screens

/-- No closure has trapped, and between a sign-out and the next login or sign-up
no key is stored. -/
def Cleared (s : Session) : Prop :=
  s.trapped = false ∧ (s.quiet = true → ∀ key, s.defaults key = none)

end Session

def machine (parses : String → Bool) : Machine Session Action where
  step := Session.step parses

section Harmless

variable (parses : String → Bool) (s : Session)

/-- An answer does no harm where its closure neither stores keys after the sign-out nor traps. A
document has to be complete and to lead the tabs to URLs, and a successful write of the basics
has to lead them there. Where the completion is called its screen has to be there. -/
def HarmlessAnswer (service : Service) (gone : Bool) : AuthRequest → Prop
  | .loginDocument .. => ∀ document ∈ service.document, gone = false ∧ s.quiet = false ∧
      document.profile.isSome ∧
      ∀ profile ∈ document.profile, s.tabs.AcceptLogin parses s.defaults profile
  | .userData _ => ∀ document ∈ service.document, s.quiet = false ∧
      (document.refresh s.app.currentUser).isSome ∧
      ∀ refresh ∈ document.refresh s.app.currentUser,
        s.tabs.AcceptRefresh parses s.defaults refresh
  | .setBasics _ _ _ _ country => gone = false ∧ (service.error = false →
      s.quiet = false ∧ s.tabs.AcceptBasics parses s.defaults country)
  | .mergeInterests .. => gone = false
  | .signIn .. => service.signedIn.toOption = none → gone = false
  | .createUser .. => service.created.toOption = none → gone = false

/-- A button that has expanded stores the selection of its screen. -/
def Harmless : Action → Prop
  | .deliver i service gone =>
      ∀ picked ∈ pick s.inFlight i, HarmlessAnswer parses s service gone picked.1
  | .expanded selectedInterests gone => gone = false ∧ s.quiet = false ∧
      s.tabs.StoredNewsParse parses s.defaults selectedInterests
  | _ => True

instance (service : Service) (gone : Bool) :
    (request : AuthRequest) → Decidable (HarmlessAnswer parses s service gone request)
  | .loginDocument .. => inferInstanceAs (Decidable (∀ _ ∈ _, _ ∧ _ ∧ _ ∧ ∀ _ ∈ _, _))
  | .userData _ => inferInstanceAs (Decidable (∀ _ ∈ _, _ ∧ _ ∧ ∀ _ ∈ _, _))
  | .setBasics .. => inferInstanceAs (Decidable (_ ∧ (_ → _ ∧ _)))
  | .mergeInterests .. => inferInstanceAs (Decidable (_ = _))
  | .signIn .. | .createUser .. => inferInstanceAs (Decidable (_ = none → _))

instance : (a : Action) → Decidable (Harmless parses s a)
  | .deliver _ _ _ => inferInstanceAs (Decidable (∀ _ ∈ _, _))
  | .expanded _ _ => inferInstanceAs (Decidable (_ ∧ _ ∧ _))
  | .start _ | .signOut _ | .removeUserInfo | .load _ => inferInstanceAs (Decidable True)

end Harmless

/-! ## What one step does -/

section Steps

variable {parses : String → Bool} {s s' : Session}

theorem cleared_unchanged (hcleared : s.Cleared) (hquiet : s'.quiet = true → s.quiet = true)
    (hdefaults : s'.defaults = s.defaults) (htrapped : s'.trapped = false) : s'.Cleared := by
  refine ⟨htrapped, fun hq key => ?_⟩
  rw [hdefaults]
  exact hcleared.2 (hquiet hq) key

/-- A closure that stores some key does no harm unless the session is quiet. -/
theorem cleared_stored (key : Key) (value : Value) (htrapped : s'.trapped = false)
    (hstored : s'.defaults key = some value) : s'.Cleared ↔ s'.quiet = false := by
  constructor
  · intro hcleared
    rw [← Bool.not_eq_true]
    intro hquiet
    have hnone := hcleared.2 hquiet key
    rw [hstored] at hnone
    cases hnone
  · intro hquiet
    refine ⟨htrapped, fun hq => ?_⟩
    rw [hquiet] at hq
    cases hq

theorem not_cleared_traps {code : Callback App AuthRequest Unit Unit}
    (h : App.Traps code ⟨s.app, [], []⟩) : ¬ (s.react code).Cleared := by
  obtain ⟨defaults, htrap⟩ := h
  rintro ⟨htrapped, -⟩
  simp only [Session.react, Callback.exec_apply, htrap] at htrapped
  cases htrapped

theorem cleared_ends {code : Callback App AuthRequest Unit Unit} {defaults : Defaults}
    (h : code ⟨s.app, [], []⟩ = (some (), ⟨{ s.app with defaults := defaults }, [], []⟩))
    (key : Key) (value : Value) (hstored : defaults key = some value) :
    (s.react code).Cleared ↔ s.quiet = false := by
  have hdefaults : (s.react code).defaults = defaults := by
    simp only [Session.react, Session.defaults, Callback.exec_apply, h]
  refine cleared_stored key value ?_ (hdefaults ▸ hstored)
  simp only [Session.react, Callback.exec_apply, h, Option.isNone_some]

theorem not_cleared_gone {code : Callback App AuthRequest Unit Unit} (defaults : Defaults)
    (h : code ⟨s.app, [], []⟩ =
      unownedSelf true ⟨{ s.app with defaults := defaults }, [], []⟩) :
    ¬ (s.react code).Cleared :=
  not_cleared_traps ⟨defaults, h⟩

/-! A closure that stores does no harm before a sign-out, if it comes to its end. -/

section Closures

variable [Observers]

theorem cleared_onDocument (gone : Bool) (email : String) (document : UserDocument) :
    (s.react (login.onDocument (fun _ => unownedSelf gone) email (some document))).Cleared ↔
      gone = false ∧ s.quiet = false ∧ document.profile.isSome ∧ ∀ profile ∈ document.profile,
        Observers.through (profile.entries email) s.defaults = true := by
  cases hprofile : document.profile with
  | none =>
      refine iff_of_false (not_cleared_traps (login.onDocument_traps _ email _ ?_)) (by simp)
      simp [hprofile]
  | some profile =>
      simp only [Option.isSome_some, true_and, Option.mem_some_iff, forall_eq']
      cases hthrough : Observers.through (profile.entries email) s.defaults with
      | false =>
          refine iff_of_false (not_cleared_traps (login.onDocument_traps _ email _ ?_)) (by simp)
          simp only [hprofile, Option.mem_some_iff, forall_eq']
          exact hthrough
      | true =>
          have hends := login.onDocument_through (fun _ => unownedSelf gone) email hprofile
            (⟨s.app, [], []⟩ : Trace App AuthRequest Unit) hthrough
          cases gone with
          | true => exact iff_of_false (not_cleared_gone _ hends) (by simp)
          | false =>
              rw [cleared_ends hends .email (.string email) rfl]
              simp

theorem cleared_userData (document : UserDocument) :
    (s.react (updateUserData.onDocument (some document))).Cleared ↔
      s.quiet = false ∧ (document.refresh s.app.currentUser).isSome ∧
        ∀ refresh ∈ document.refresh s.app.currentUser,
          Observers.through refresh.entries s.defaults = true := by
  cases hrefresh : document.refresh s.app.currentUser with
  | none =>
      refine iff_of_false (not_cleared_traps (updateUserData.onDocument_traps _ ?_)) (by simp)
      simp [hrefresh]
  | some refresh =>
      simp only [Option.isSome_some, true_and, Option.mem_some_iff, forall_eq']
      cases hthrough : Observers.through refresh.entries s.defaults with
      | false =>
          refine iff_of_false (not_cleared_traps (updateUserData.onDocument_traps _ ?_)) (by simp)
          simp only [hrefresh, Option.mem_some_iff, forall_eq']
          exact hthrough
      | true =>
          have hends := updateUserData.onDocument_through
            (⟨s.app, [], []⟩ : Trace App AuthRequest Unit) hrefresh hthrough
          rw [cleared_ends hends .email (.string refresh.email) rfl, and_iff_left rfl]

theorem cleared_setBasics (gone : Bool) (firstName lastName email : String) (country : Country) :
    (s.react (signUpBasics.onSaved (fun _ => unownedSelf gone) firstName lastName email country
        false)).Cleared ↔
      gone = false ∧ s.quiet = false ∧ Observers.through
        (signUpBasics.entries firstName lastName email country) s.defaults = true := by
  cases hthrough : Observers.through
      (signUpBasics.entries firstName lastName email country) s.defaults with
  | false =>
      exact iff_of_false (not_cleared_traps (signUpBasics.onSaved_traps _ hthrough)) (by simp)
  | true =>
      have hends := signUpBasics.onSaved_through (fun _ => unownedSelf gone)
        (t := (⟨s.app, [], []⟩ : Trace App AuthRequest Unit)) hthrough
      cases gone with
      | true => exact iff_of_false (not_cleared_gone _ hends) (by simp)
      | false =>
          rw [cleared_ends hends .email (.string email) rfl]
          simp

theorem cleared_expanded (gone : Bool) (selectedInterests : List String) :
    (s.react (expanded gone selectedInterests)).Cleared ↔
      gone = false ∧ s.quiet = false ∧ Observers.run .interests
        (UserRepository.store .interests (.strings selectedInterests) s.defaults) = true := by
  cases gone with
  | true => exact iff_of_false (not_cleared_gone s.defaults rfl) (by simp)
  | false =>
      set stored := UserRepository.store .interests (.strings selectedInterests) s.defaults
      have happly : expanded false selectedInterests
          (⟨s.app, [], []⟩ : Trace App AuthRequest Unit) =
            (if Observers.run .interests stored then some () else none,
              ⟨{ s.app with defaults := stored }, [], []⟩) := rfl
      cases hrun : Observers.run .interests stored with
      | false =>
          rw [hrun, if_neg Bool.false_ne_true] at happly
          exact iff_of_false (not_cleared_traps ⟨_, happly⟩) (by simp)
      | true =>
          rw [hrun, if_pos rfl] at happly
          rw [cleared_ends happly .interests (.strings selectedInterests) rfl]
          simp

end Closures

theorem cleared_called {gone : Bool} (hcleared : s.Cleared) :
    (s.react (unownedSelf gone)).Cleared ↔ gone = false := by
  cases gone with
  | true => exact iff_of_false (not_cleared_gone s.defaults rfl) (by simp)
  | false => exact iff_of_true (cleared_unchanged hcleared id rfl rfl) rfl

theorem cleared_closure (service : Service) (gone : Bool) (request : AuthRequest)
    (hcleared : s.Cleared) :
    (s.observed parses (service.answer (completion gone request) request)).Cleared ↔
      HarmlessAnswer parses s service gone request := by
  let _ := s.tabs.observers parses
  cases request with
  | signIn email password =>
      change (s.react (login.onSignIn (fun _ => unownedSelf gone) email service.signedIn)).Cleared ↔
        (service.signedIn.toOption = none → gone = false)
      cases service.signedIn with
      | error message => exact (cleared_called hcleared).trans (by simp [Except.toOption])
      | ok user =>
          exact iff_of_true (cleared_unchanged hcleared id rfl rfl) (by simp [Except.toOption])
  | createUser firstName lastName email password country =>
      change (s.react (signUpBasics.onCreated (fun _ => unownedSelf gone) firstName lastName email
        country service.created)).Cleared ↔ (service.created.toOption = none → gone = false)
      cases service.created with
      | error message => exact (cleared_called hcleared).trans (by simp [Except.toOption])
      | ok user =>
          exact iff_of_true (cleared_unchanged hcleared id rfl rfl) (by simp [Except.toOption])
  | loginDocument uid email =>
      change (s.react (login.onDocument (fun _ => unownedSelf gone) email
        service.document)).Cleared ↔ ∀ document ∈ service.document, _
      cases service.document with
      | none => exact iff_of_true (cleared_unchanged hcleared id rfl rfl) (by simp)
      | some document =>
          simp only [Option.mem_some_iff, forall_eq', cleared_onDocument, Tabs.through_login]
  | userData uid =>
      change (s.react (updateUserData.onDocument service.document)).Cleared ↔
        ∀ document ∈ service.document, _
      cases service.document with
      | none => exact iff_of_true (cleared_unchanged hcleared id rfl rfl) (by simp)
      | some document =>
          simp only [Option.mem_some_iff, forall_eq', cleared_userData, Tabs.through_refresh]
  | setBasics uid firstName lastName email country =>
      change (s.react (signUpBasics.onSaved (fun _ => unownedSelf gone) firstName lastName email
        country service.error)).Cleared ↔ gone = false ∧ (service.error = false → _)
      cases service.error with
      | true => exact (cleared_called hcleared).trans (by simp)
      | false => simp only [cleared_setBasics, Tabs.through_basics, forall_const]
  | mergeInterests uid interests =>
      change (s.react (signUpInterests.onSaved (fun message => unownedSelf gone >>= fun _ =>
        SignUpInterestsViewController.onSignedUp message) service.error)).Cleared ↔ gone = false
      cases gone with
      | true =>
          refine iff_of_false (not_cleared_gone s.defaults ?_) (by simp)
          cases service.error <;> rfl
      | false =>
          refine iff_of_true ?_ rfl
          cases service.error <;> exact cleared_unchanged hcleared id rfl rfl

theorem cleared_start {operation : Operation} (hcleared : s.Cleared)
    (h : s.act parses (.start operation) = some s') : s'.Cleared := by
  simp only [Session.act] at h
  split at h
  · cases h
  · next htrapped =>
      obtain rfl := Option.some.inj h
      refine cleared_unchanged hcleared ?_ ?_ (by simpa using htrapped)
      · intro hquiet
        change (s.quiet && !operation.isNew) = true at hquiet
        exact (Bool.and_eq_true _ _ ▸ hquiet).1
      · -- starting only sends a request
        cases operation with
        | login email password => rfl
        | signUpBasics firstName lastName email password country => rfl
        | updateUserData | signUpInterests interests =>
            obtain ⟨⟨_ | user, defaults, news⟩, tabs, inFlight, expanding, quiet, trapped⟩ := s <;>
              rfl

theorem cleared_removed (h : s'.defaults = UserRepository.removeUserInfo s.defaults)
    (htrapped : s'.trapped = false) : s'.Cleared := by
  refine ⟨htrapped, fun _ key => ?_⟩
  rw [h]
  exact UserRepository.removeUserInfo_apply s.defaults key

theorem cleared_signOut (ok : Bool) (hcleared : s.Cleared) :
    ({ s.observed parses (Authentication.signOut (fun _ => pure ()) ok) with
      quiet := s.quiet || ok } : Session).Cleared := by
  let _ := s.tabs.observers parses
  have hreact : s.observed parses (Authentication.signOut (fun _ => pure ()) ok) = { s with
      app := if ok then { s.app with
        currentUser := none
        defaults := UserRepository.removeUserInfo s.defaults } else s.app
      inFlight := s.inFlight ++ []
      trapped := false } := by
    change s.react (Authentication.signOut (fun _ => pure ()) ok) = _
    simp only [Session.react, Callback.exec_apply, signOut_apply]
    cases ok <;> rfl
  rw [hreact]
  cases ok with
  | true => exact cleared_removed (s := s) rfl rfl
  | false => exact cleared_unchanged hcleared (fun hquiet => by simpa using hquiet) rfl rfl

theorem cleared_removeUserInfo : (s.observed parses App.removeUserInfo).Cleared := by
  let _ := s.tabs.observers parses
  have hreact : s.observed parses App.removeUserInfo = { s with
      app := { s.app with defaults := UserRepository.removeUserInfo s.defaults }
      inFlight := s.inFlight ++ []
      trapped := false } := by
    change s.react App.removeUserInfo = _
    simp only [Session.react, Callback.exec_apply, App.removeUserInfo_apply]
    rfl
  rw [hreact]
  exact cleared_removed (s := s) rfl rfl

/-- A step from a cleared session leads to a cleared one exactly when it does no harm. -/
theorem cleared_step {a : Action} (hcleared : s.Cleared)
    (h : (machine parses).step s a = some s') : s'.Cleared ↔ Harmless parses s a := by
  have hact : s.act parses a = some s' := by
    change s.step parses a = some s' at h
    rwa [Session.step, hcleared.1, if_neg Bool.false_ne_true] at h
  cases a with
  | start operation => exact iff_of_true (cleared_start hcleared hact) trivial
  | signOut ok =>
      obtain rfl := Option.some.inj hact
      exact iff_of_true (cleared_signOut ok hcleared) trivial
  | removeUserInfo =>
      obtain rfl := Option.some.inj hact
      exact iff_of_true cleared_removeUserInfo trivial
  | load tabs =>
      obtain rfl := Option.some.inj hact
      exact iff_of_true (cleared_unchanged hcleared id rfl hcleared.1) trivial
  | deliver i service gone =>
      obtain ⟨⟨request, rest⟩, hpick, rfl⟩ := Option.map_eq_some_iff.mp hact
      simp only [Harmless, hpick, Option.mem_some_iff, forall_eq']
      let asked : Session := { s with
        app := { s.app with currentUser := service.currentUser request s.app.currentUser }
        inFlight := rest }
      have hasked : HarmlessAnswer parses asked service gone request ↔
          HarmlessAnswer parses s service gone request := by cases request <;> exact Iff.rfl
      exact (cleared_closure (s := asked) service gone request hcleared).trans hasked
  | expanded selectedInterests gone =>
      obtain ⟨-, hact⟩ := Option.ite_none_right_eq_some.mp hact
      obtain rfl := Option.some.inj hact
      let _ := s.tabs.observers parses
      refine Iff.trans (cleared_expanded (s := { s with expanding := s.expanding - 1 }) gone
        selectedInterests) (and_congr_right fun _ => and_congr_right fun _ => ?_)
      exact Tabs.run_interests selectedInterests

end Steps

/-! ## Sign-out clears the profile for good -/

/-- **Sign-out.** From a running session, with any requests in flight, nothing traps and no key
is stored between a sign-out and the next login or sign-up exactly as long as every answer that
arrives, and every button that has expanded, does no harm. -/
theorem signOut_clears {parses : String → Bool} {s₀ : Session} {as : List Action}
    (hrunning : s₀.trapped = false) (hbefore : s₀.quiet = false) :
    (machine parses).Always Session.Cleared s₀ as ↔
      (machine parses).Meets (Harmless parses) s₀ as := by
  have hcleared : s₀.Cleared := ⟨hrunning, fun hquiet => by
    rw [hbefore] at hquiet
    cases hquiet⟩
  exact (machine parses).always_iff_meets (I := fun _ => True) (fun _ _ _ => trivial)
    (fun _ hcleared h => cleared_step hcleared h) trivial hcleared

/-- A launch has asked for the document of the signed-in user; both tabs are loaded. -/
def launched : Session where
  app := { currentUser := some ⟨"reader", some "reader@example.com"⟩ }
  tabs := ⟨true, true⟩
  inFlight := [.userData "reader"]

def completeDocument : UserDocument where
  firstname := some (.string "Ada")
  lastname := some (.string "Reader")
  country := some (.dictionary [("short", "bg"), ("full", "Bulgaria")])
  interests := some (.strings ["science"])

def withoutSpace (address : String) : Bool := !address.toList.contains ' '

/-- The document arrives before the sign-out; a new sign-up saves interests and its button
expands. -/
def signOutAtRest : List Action :=
  [.deliver 0 { document := some completeDocument } false, .signOut true,
    .start (.signUpBasics "Ada" "Reader" "ada@example.com" "secret1" [("short", "bg")]),
    .deliver 0 { created := .ok ⟨"ada", some "ada@example.com"⟩ } false, .deliver 0 {} false,
    .start (.signUpInterests ["science"]), .deliver 0 {} false,
    .expanded ["science", "health"] false]

theorem signOut_clears_atRest :
    (machine withoutSpace).Always Session.Cleared launched signOutAtRest := by
  have hharmless : (machine withoutSpace).Meets (Harmless withoutSpace) launched signOutAtRest := by
    decide +kernel
  exact (signOut_clears rfl rfl).mpr hharmless

/-- The document arrives after the sign-out: two keys are stored again, then the
unwrapped user is gone. -/
def documentAfterSignOut : List Action :=
  [.signOut true, .deliver 0 { document := some completeDocument } false]

theorem signOut_overtaken :
    ¬ ∀ (parses : String → Bool) (s₀ : Session) (as : List Action), s₀.trapped = false →
      s₀.quiet = false → (machine parses).Always Session.Cleared s₀ as := by
  intro h
  have hends : ((machine withoutSpace).run launched documentAfterSignOut).isSome := by
    decide +kernel
  have htrapped : ∀ s ∈ (machine withoutSpace).run launched documentAfterSignOut,
      s.trapped = true ∧ s.defaults .firstname = some (.string "Ada") := by decide +kernel
  refine (machine withoutSpace).not_always_of_run hends (fun s hs hcleared => ?_)
    (h withoutSpace launched documentAfterSignOut rfl rfl)
  rw [Session.Cleared, (htrapped s hs).1] at hcleared
  cases hcleared.1

end NewsFlash.Accounts.SignOut
