import NewsFlash.Accounts.Editors
import NewsFlash.Accounts.SignOut
import NewsFlash.Library.Replica

/-!
# One account on several devices

Every device keeps the profile of its user in its own defaults. An editor writes the defaults at
once and leaves an update of the user's document to the service; a login and a launch read a
document back, which may be any document. `inStep` follows from which answer on a device has
followed the document of its user.
-/

namespace NewsFlash.Accounts.Devices

open NewsFlash.Library NewsFlash.Models NewsFlash.Models.Authentication
open NewsFlash.Accounts.CurrentUser (UpdateData)
open NewsFlash.Accounts.Editors (setField updateData)
open NewsFlash.Accounts.SignOut (Operation completion unownedSelf)

/-! ## Devices -/

/-- The updates that a user has made here wait in their order until the service has answered
them. A device is `inStep` from an answer that is up to date as long as nothing but its own
editors and updates touches the profile and the document of its user. -/
structure Device where
  app : App := {}
  observers : Observers := unobserved
  inFlight : List AuthRequest := []
  expanding : Nat := 0
  updates : Uid → List UpdateData := fun _ => []
  stopped : Bool := false
  inStep : Bool := false

inductive Event where
  | observe (observers : Observers)
  | start (operation : Operation)
  | deliver (k : Nat) (service : Service) (gone : Bool)
  | expanded (selectedInterests : List String) (gone : Bool)
  | signOut (ok : Bool)
  | removeUserInfo
  | closeDetails (firstName lastName : String) (country : Country)
  | closeInterests (interests : Option (List String))
  | closeSettings (isCountrySpecific : Bool) (language : String)

/-- What is stored of the fields of a document. -/
def stored (defaults : Defaults) : UserDocument where
  firstname := defaults .firstname
  lastname := defaults .lastname
  country := defaults .country
  interests := defaults .interests

/-- The document of one user, and the updates of all. -/
def account (uid : Uid) :
    Replica (Uid → Option UserDocument) UpdateData (Option UserDocument) where
  apply := updateData
  view documents := documents uid
  edit document update :=
    if update.uid = uid then document.map fun document => update.fields.foldl setField document
    else document
  view_apply documents update := by
    unfold updateData
    by_cases huid : update.uid = uid
    · subst huid
      rw [Function.update_self, if_pos rfl]
    · rw [Function.update_of_ne (Ne.symm huid), if_neg huid]

theorem account_edit (uid : Uid) (document : UserDocument) (fields : List (Key × Value)) :
    (account uid).edit (some document) ⟨uid, fields⟩ = some (fields.foldl setField document) :=
  if_pos rfl

namespace Device

def uid (d : Device) : Option Uid := d.app.currentUser.map User.uid

/-- The process ends where its code traps. -/
def run (d : Device) (code : Callback App AuthRequest Unit Unit) : Device :=
  let done := code.exec d.app
  { d with
    app := done.2.store
    inFlight := d.inFlight ++ done.2.issued
    expanding := d.expanding + done.2.completed.length
    stopped := done.1.isNone
    inStep := d.inStep && done.1.isSome }

def edit (d : Device) (code : Callback App UpdateData Unit Unit) : Device :=
  let done := code.exec d.app
  { d with
    app := done.2.store
    updates := fun uid => d.updates uid ++ done.2.issued.filter fun update => update.uid = uid
    stopped := done.1.isNone
    inStep := d.inStep && done.1.isSome }

def observed {ρ : Type} (d : Device) (code : [Observers] → Callback App ρ Unit Unit) :
    Callback App ρ Unit Unit :=
  @code d.observers

/-- A new process. The user stays signed in, and updates that wait are kept. -/
def launch (d : Device) : Device :=
  let launched : Device := { d with
    app := { currentUser := d.app.currentUser, defaults := d.app.defaults }
    observers := unobserved
    inFlight := []
    expanding := 0
    stopped := false }
  if d.app.currentUser.isSome then launched.run updateUserData else launched

/-- The document is what that of the user who is signed in will be once the updates that wait
here have been applied. -/
def upToDate (d : Device) (documents : Uid → Option UserDocument) (uid : Uid)
    (document : UserDocument) : Bool :=
  d.uid = some uid &&
    (account uid).view ((account uid).expected documents (d.updates uid)) = some document

/-- A user who signs in has not been read yet, and a sign-up stores what no document has
brought. -/
def inStepAfter (d : Device) (documents : Uid → Option UserDocument) (service : Service) :
    AuthRequest → Bool
  | .signIn .. => d.inStep && service.signedIn.toOption.isNone
  | .createUser .. => d.inStep && service.created.toOption.isNone
  | .loginDocument uid _ | .userData uid => match service.document with
      | some document => d.upToDate documents uid document
      | none => d.inStep
  | .setBasics .. => d.inStep && service.error
  | .mergeInterests .. => d.inStep

def deliver (d : Device) (documents : Uid → Option UserDocument) (service : Service)
    (gone : Bool) (request : AuthRequest) : Device :=
  { d with
    app := { d.app with currentUser := service.currentUser request d.app.currentUser }
    inStep := d.inStepAfter documents service request }.run
      (d.observed (service.answer (completion gone request) request))

def step (d : Device) (documents : Uid → Option UserDocument) (event : Event) : Option Device :=
  if d.stopped then none
  else match event with
    | .observe observers => some { d with observers }
    | .start operation => some (d.run operation.body)
    | .deliver k service gone => (pick d.inFlight k).map fun (request, inFlight) =>
        { d with inFlight }.deliver documents service gone request
    | .expanded selectedInterests gone =>
        if 0 < d.expanding then
          some ({ d with expanding := d.expanding - 1, inStep := false }.run
            (d.observed (SignOut.expanded gone selectedInterests)))
        else none
    | .signOut ok => some ({ d with inStep := d.inStep && !ok }.run
        (d.observed (Authentication.signOut (fun _ => pure ()) ok)))
    | .removeUserInfo => some ({ d with inStep := false }.run (d.observed App.removeUserInfo))
    | .closeDetails firstName lastName country => some (d.edit (d.observed
        (CurrentUser.EditUserDetailsViewController.viewDidDisappear firstName lastName country)))
    | .closeInterests interests => some (d.edit (d.observed
        (CurrentUser.EditUserInterestsViewController.viewDidDisappear interests)))
    | .closeSettings isCountrySpecific language => some (d.edit (d.observed
        (CurrentUser.AppSettingsViewController.viewDidDisappear isCountrySpecific language)))

/-- The document of a user is no longer what this device has made of it. -/
def lose (d : Device) (uid : Uid) : Device :=
  { d with inStep := d.inStep && d.uid ≠ some uid }

end Device

/-! ## The service -/

structure World (ι : Type) where
  documents : Uid → Option UserDocument
  devices : ι → Device

/-- The oldest update of a user that waits on a device is applied, or refused. A sign-up, and
whoever else can write it, replaces a document. -/
inductive Action (ι : Type) where
  | launch (i : ι)
  | on (i : ι) (event : Event)
  | apply (i : ι) (uid : Uid) (accepted : Bool)
  | replace (uid : Uid) (document : Option UserDocument)

namespace World

variable {ι : Type} [DecidableEq ι]

def set (w : World ι) (i : ι) (d : Device) : World ι :=
  { w with devices := Function.update w.devices i d }

def apply (w : World ι) (i : ι) (uid : Uid) (accepted : Bool) : Option (World ι) :=
  match (w.devices i).updates uid with
  | [] => none
  | update :: waiting =>
      let d : Device := { w.devices i with
        updates := Function.update (w.devices i).updates uid waiting }
      if accepted then some {
        documents := updateData w.documents update
        devices := Function.update (fun j => (w.devices j).lose uid) i d }
      else some (w.set i (d.lose uid))

def step (w : World ι) : Action ι → Option (World ι)
  | .launch i => some (w.set i (w.devices i).launch)
  | .on i event => ((w.devices i).step w.documents event).map (w.set i)
  | .apply i uid accepted => w.apply i uid accepted
  | .replace uid document => some {
      documents := Function.update w.documents uid document
      devices := fun j => (w.devices j).lose uid }

end World

def machine (ι : Type) [DecidableEq ι] : Machine (World ι) (Action ι) where
  step := World.step

/-! ## Documents -/

structure Castable (document : UserDocument) : Prop where
  country : (document.country.bind Value.asDictionary).isSome
  interests : (document.interests.bind Value.asStrings).isSome

/-- A field that leaves a document castable. -/
def WellTyped : Key × Value → Prop
  | (.country, value) => value.asDictionary.isSome
  | (.interests, value) => value.asStrings.isSome
  | _ => True

section Documents

variable {document : UserDocument} {profile : Profile} {refresh : Refresh}

theorem castable_setField {field : Key × Value} (hfield : WellTyped field)
    (h : Castable document) : Castable (setField document field) := by
  obtain ⟨key, value⟩ := field
  cases key with
  | country => exact ⟨hfield, h.interests⟩
  | interests => exact ⟨h.country, hfield⟩
  | firstname | lastname | email | isCountrySpecific | resultLanguage =>
      exact ⟨h.country, h.interests⟩

theorem castable_foldl {fields : List (Key × Value)}
    (hfields : ∀ field ∈ fields, WellTyped field) (h : Castable document) :
    Castable (fields.foldl setField document) := by
  induction fields generalizing document with
  | nil => exact h
  | cons field fields ih =>
      exact ih (fun other hother => hfields other (List.mem_cons_of_mem field hother))
        (castable_setField (hfields field List.mem_cons_self) h)

theorem stored_store (key : Key) (value : Value) (defaults : Defaults) :
    stored (UserRepository.store key value defaults) = setField (stored defaults) (key, value) := by
  cases key <;> rfl

theorem stored_storeAll (fields : List (Key × Value)) (defaults : Defaults) :
    stored (UserRepository.storeAll fields defaults) = fields.foldl setField (stored defaults) := by
  unfold UserRepository.storeAll
  induction fields generalizing defaults with
  | nil => rfl
  | cons field fields ih => rw [List.foldl_cons, List.foldl_cons, ih, stored_store]

theorem asString_eq_some {value : Value} {s : String} (h : value.asString = some s) :
    value = .string s := by
  cases value <;> cases h
  rfl

theorem asDictionary_eq_some {value : Value} {entries : List (String × String)}
    (h : value.asDictionary = some entries) : value = .dictionary entries := by
  cases value <;> cases h
  rfl

theorem asStrings_eq_some {value : Value} {xs : List String} (h : value.asStrings = some xs) :
    value = .strings xs := by
  cases value <;> cases h
  rfl

/-- A field that is cast and wrapped again is what it was. -/
theorem eq_of_cast {β : Type} {cast : Value → Option β} {wrap : β → Value}
    (hwrap : ∀ {value b}, cast value = some b → value = wrap b) {field : Option Value} {b : β}
    (h : field.bind cast = some b) : field = some (wrap b) := by
  obtain ⟨value, hvalue, hcast⟩ := Option.bind_eq_some_iff.mp h
  rw [hvalue, hwrap hcast]

/-- A login stores a document as it is, and so does a launch. -/
theorem stored_profile (h : document.profile = some profile) (email : String) :
    stored (profile.defaults email) = document := by
  unfold UserDocument.profile at h
  split at h
  · next lastname firstname country interests hl hf hc hi =>
      obtain rfl := Option.some.inj h
      cases document
      simp only [stored, Profile.defaults, UserDocument.mk.injEq]
      exact ⟨(eq_of_cast asString_eq_some hf).symm, (eq_of_cast asString_eq_some hl).symm,
        (eq_of_cast asDictionary_eq_some hc).symm, (eq_of_cast asStrings_eq_some hi).symm⟩
  · cases h

theorem castable_profile (h : document.profile = some profile) : Castable document := by
  rw [← stored_profile h ""]
  exact ⟨rfl, rfl⟩

theorem stored_refresh {currentUser : Option User}
    (h : document.refresh currentUser = some refresh) (defaults : Defaults) :
    stored (refresh.defaults defaults) = document := by
  unfold UserDocument.refresh at h
  split at h
  · next firstname lastname email country interests hf hl he hc hi =>
      obtain rfl := Option.some.inj h
      cases document
      simp only [stored, Refresh.defaults, UserDocument.mk.injEq]
      exact ⟨hf.symm, hl.symm, (eq_of_cast asDictionary_eq_some hc).symm,
        (eq_of_cast asStrings_eq_some hi).symm⟩
  · cases h

theorem castable_refresh {currentUser : Option User}
    (h : document.refresh currentUser = some refresh) : Castable document := by
  rw [← stored_refresh h fun _ => none]
  exact ⟨rfl, rfl⟩

end Documents

/-! ## Code that comes to its end -/

section Ends

variable {document : UserDocument} {app : App}

theorem not_traps {code : Callback App AuthRequest Unit Unit}
    (h : (code.exec app).1.isSome) : ¬ App.Traps code ⟨app, [], []⟩ := by
  rintro ⟨defaults, htrap⟩
  rw [Callback.exec_apply, htrap] at h
  cases h

variable [Observers]

/-- A closure of `login` that has come to its end has stored the document. -/
theorem onDocument_ends {gone : Bool} {email : String}
    (h : ((login.onDocument (fun _ => unownedSelf gone) email (some document)).exec
      app).1.isSome) :
    Castable document ∧ ∃ defaults, stored defaults = document ∧
      ((login.onDocument (fun _ => unownedSelf gone) email (some document)).exec app).2.store =
        { app with defaults } := by
  cases hprofile : document.profile with
  | none =>
      refine absurd (login.onDocument_traps _ email _ ?_) (not_traps h)
      simp [hprofile]
  | some profile =>
      refine ⟨castable_profile hprofile, profile.defaults email, stored_profile hprofile email, ?_⟩
      cases hthrough : Observers.through (profile.entries email) app.defaults with
      | false =>
          refine absurd (login.onDocument_traps _ email _ ?_) (not_traps h)
          simpa [hprofile] using hthrough
      | true =>
          rw [Callback.exec_apply, login.onDocument_through _ email hprofile _ hthrough]
          cases gone <;> rfl

theorem userData_ends
    (h : ((updateUserData.onDocument (some document) :
      Callback App AuthRequest Unit Unit).exec app).1.isSome) :
    Castable document ∧ ∃ defaults, stored defaults = document ∧
      ((updateUserData.onDocument (some document) :
        Callback App AuthRequest Unit Unit).exec app).2.store = { app with defaults } := by
  cases hrefresh : document.refresh app.currentUser with
  | none =>
      refine absurd (updateUserData.onDocument_traps _ ?_) (not_traps h)
      simp [hrefresh]
  | some refresh =>
      refine ⟨castable_refresh hrefresh, refresh.defaults app.defaults,
        stored_refresh hrefresh app.defaults, ?_⟩
      cases hthrough : Observers.through refresh.entries app.defaults with
      | false =>
          refine absurd (updateUserData.onDocument_traps _ ?_) (not_traps h)
          simpa [hrefresh] using hthrough
      | true => rw [Callback.exec_apply, updateUserData.onDocument_through _ hrefresh hthrough]

/-- An editor that has come to its end has left the fields of the document alone, or it sends
the document what it has stored. -/
inductive Edited (app : App) : Trace App UpdateData Unit → Prop
  | aside {t : Trace App UpdateData Unit} (hstored : stored t.store.defaults = stored app.defaults)
      (huser : t.store.currentUser = app.currentUser) (hissued : t.issued = []) : Edited app t
  | sent {t : Trace App UpdateData Unit} {user : User} {fields : List (Key × Value)}
      (huser : app.currentUser = some user) (hfields : ∀ field ∈ fields, WellTyped field)
      (hstore : t.store = { app with defaults := UserRepository.storeAll fields app.defaults })
      (hissued : t.issued = [⟨user.uid, fields⟩]) : Edited app t

theorem store_ends {ρ : Type} {key : Key} {value : Value} {t t' : Trace App ρ Unit}
    (h : App.store key value t = (some (), t')) :
    t' = { t with store := { t.store with
      defaults := UserRepository.store key value t.store.defaults } } := by
  rw [App.store_apply] at h
  exact (Prod.mk.inj h).2.symm

theorem forM_store_ends {ρ : Type} {fields : List (Key × Value)} {t t' : Trace App ρ Unit}
    (h : (forM fields fun entry => App.store entry.1 entry.2) t = (some (), t')) :
    t' = { t with store := { t.store with
      defaults := UserRepository.storeAll fields t.store.defaults } } := by
  induction fields generalizing t with
  | nil =>
      obtain ⟨-, rfl⟩ := Prod.mk.inj h
      rfl
  | cons field fields ih =>
      rw [List.forM_cons] at h
      obtain ⟨_, stored, hstore, hrest⟩ := Callback.bind_ends (by rw [h]; rfl)
      rw [hrest] at h
      rw [ih h, store_ends hstore]
      rfl

theorem closeDetails_ends {firstName lastName : String} {country : Country}
    (h : ((CurrentUser.EditUserDetailsViewController.viewDidDisappear firstName lastName
      country).exec app).1.isSome) :
    Edited app ((CurrentUser.EditUserDetailsViewController.viewDidDisappear firstName lastName
      country).exec app).2 := by
  unfold CurrentUser.EditUserDetailsViewController.viewDidDisappear at h ⊢
  rw [Callback.exec_apply, Callback.bind_apply, Callback.read_apply] at h ⊢
  cases huser : app.currentUser with
  | none => exact .aside (by simp) (by simp [huser]) (by simp)
  | some user =>
      simp only [huser] at h ⊢
      obtain ⟨_, t, hstored, hsend⟩ := Callback.bind_ends h
      rw [hsend]
      refine .sent huser (fun field hfield => ?_) (by rw [forM_store_ends hstored]; rfl)
        (by rw [forM_store_ends hstored]; rfl)
      rcases List.mem_append.mp hfield with hfield | hfield
      · have hname := List.mem_of_mem_filter hfield
        simp only [List.mem_cons, List.not_mem_nil, or_false] at hname
        rcases hname with rfl | rfl <;> trivial
      · obtain rfl := List.mem_singleton.mp hfield
        exact rfl

theorem closeInterests_ends {interests : Option (List String)}
    (h : ((CurrentUser.EditUserInterestsViewController.viewDidDisappear interests).exec
      app).1.isSome) :
    Edited app
      ((CurrentUser.EditUserInterestsViewController.viewDidDisappear interests).exec app).2 := by
  unfold CurrentUser.EditUserInterestsViewController.viewDidDisappear at h ⊢
  rw [Callback.exec_apply] at h ⊢
  cases interests with
  | none => exact .aside rfl rfl rfl
  | some interests =>
      obtain ⟨_, t, hstored, hrest⟩ := Callback.bind_ends h
      obtain rfl := store_ends hstored
      simp only at h ⊢
      rw [hrest] at h ⊢
      rw [Callback.bind_apply, App.forcedCurrentUser_apply] at h ⊢
      cases huser : app.currentUser with
      | none => simp [huser] at h
      | some user =>
          simp only [huser]
          refine .sent huser (fun field hfield => ?_) (by rw [← huser]; rfl) rfl
          obtain rfl := List.mem_singleton.mp hfield
          exact rfl

theorem closeSettings_ends {isCountrySpecific : Bool} {language : String}
    (h : ((CurrentUser.AppSettingsViewController.viewDidDisappear isCountrySpecific
      language).exec app).1.isSome) :
    Edited app ((CurrentUser.AppSettingsViewController.viewDidDisappear isCountrySpecific
      language).exec app).2 := by
  unfold CurrentUser.AppSettingsViewController.viewDidDisappear at h ⊢
  rw [Callback.exec_apply] at h ⊢
  obtain ⟨_, t, hfirst, hrest⟩ := Callback.bind_ends h
  obtain rfl := store_ends hfirst
  rw [hrest, App.store_apply]
  exact .aside rfl rfl rfl

end Ends

/-! ## What a device in step keeps -/

/-- The app shows its user what the document will be once the updates have been applied. -/
def Shows (documents : Uid → Option UserDocument) (updates : Uid → List UpdateData)
    (app : App) : Prop :=
  ∃ user, app.currentUser = some user ∧ Castable (stored app.defaults) ∧
    (account user.uid).Mirrors documents (updates user.uid) (some (stored app.defaults))

structure Device.Faithful (documents : Uid → Option UserDocument) (d : Device) : Prop where
  own : ∀ uid, ∀ update ∈ d.updates uid, update.uid = uid
  shows : d.inStep = true → Shows documents d.updates d.app

section Device

variable {documents : Uid → Option UserDocument} {d d' : Device}

theorem shows_of_eq {updates : Uid → List UpdateData} {app app' : App}
    (hstored : stored app'.defaults = stored app.defaults)
    (huser : app'.currentUser = app.currentUser) (h : Shows documents updates app) :
    Shows documents updates app' := by
  rwa [Shows, hstored, huser]

theorem faithful_run {code : Callback App AuthRequest Unit Unit}
    (hown : ∀ uid, ∀ update ∈ d.updates uid, update.uid = uid)
    (h : d.inStep = true → (code.exec d.app).1.isSome = true →
      Shows documents d.updates (code.exec d.app).2.store) :
    (d.run code).Faithful documents := by
  refine ⟨hown, fun hinStep => ?_⟩
  obtain ⟨hinStep, hends⟩ := Bool.and_eq_true_iff.mp hinStep
  exact h hinStep hends

/-- Code that leaves the profile and its user alone. -/
theorem faithful_quiet {code : Callback App AuthRequest Unit Unit} (hd : d.Faithful documents)
    (h : (code.exec d.app).2.store = d.app) : (d.run code).Faithful documents :=
  faithful_run hd.own fun hinStep _ => by
    rw [h]
    exact hd.shows hinStep

theorem faithful_edit {code : Callback App UpdateData Unit Unit} (hd : d.Faithful documents)
    (h : (code.exec d.app).1.isSome → Edited d.app (code.exec d.app).2) :
    (d.edit code).Faithful documents := by
  refine ⟨fun uid update hupdate => ?_, fun hinStep => ?_⟩
  · rcases List.mem_append.mp hupdate with hupdate | hupdate
    · exact hd.own uid update hupdate
    · exact of_decide_eq_true (List.mem_filter.mp hupdate).2
  · obtain ⟨hinStep, hends⟩ := Bool.and_eq_true_iff.mp hinStep
    obtain ⟨user, huser, hcastable, hmirrors⟩ := hd.shows hinStep
    change Shows documents (fun uid => d.updates uid ++ (code.exec d.app).2.issued.filter
      fun update => update.uid = uid) (code.exec d.app).2.store
    generalize (code.exec d.app).2 = t at h
    cases h hends with
    | aside hstored huser' hissued =>
        refine ⟨user, huser'.trans huser, hstored ▸ hcastable, ?_⟩
        simpa [hissued, hstored] using hmirrors
    | @sent user' fields huser' hfields hstore hissued =>
        obtain rfl := Option.some.inj (huser'.symm.trans huser)
        refine ⟨user', hstore ▸ huser, ?_, ?_⟩
        · rw [hstore, stored_storeAll]
          exact castable_foldl hfields hcastable
        · have hwrite := hmirrors.write (w := ⟨user'.uid, fields⟩)
          rw [account_edit, ← stored_storeAll] at hwrite
          simpa [hissued, hstore] using hwrite

theorem body_store (operation : Operation) (app : App) :
    (operation.body.exec app).2.store = app := by
  cases operation with
  | login email password => rfl
  | signUpBasics firstName lastName email password country => rfl
  | updateUserData | signUpInterests interests =>
      obtain ⟨_ | user, defaults, news⟩ := app <;> rfl

theorem launch_faithful (hd : d.Faithful documents) : d.launch.Faithful documents := by
  have hlaunched : ∀ app : App, app.currentUser = d.app.currentUser →
      app.defaults = d.app.defaults →
      { d with app, observers := unobserved, inFlight := [], expanding := 0,
               stopped := false : Device }.Faithful documents := by
    intro app huser hdefaults
    refine ⟨hd.own, fun hinStep => shows_of_eq ?_ huser (hd.shows hinStep)⟩
    rw [hdefaults]
  unfold Device.launch
  simp only
  split
  · exact faithful_quiet (hlaunched _ rfl rfl) (body_store .updateUserData _)
  · exact hlaunched _ rfl rfl

/-- An answer that signs nobody in and stores nothing. -/
theorem deliver_quiet (hd : d.Faithful documents) {service : Service} {gone : Bool}
    {request : AuthRequest}
    (hcurrent : service.currentUser request d.app.currentUser = d.app.currentUser)
    (hinStep : d.inStepAfter documents service request = d.inStep)
    (hcode : ((d.observed (service.answer (completion gone request) request)).exec
      d.app).2.store = d.app) :
    (d.deliver documents service gone request).Faithful documents := by
  unfold Device.deliver
  rw [hcurrent, hinStep]
  exact faithful_quiet hd hcode

/-- An answer after which the device is not in step any more. -/
theorem deliver_lost (hd : d.Faithful documents) {service : Service} {gone : Bool}
    {request : AuthRequest} (hinStep : d.inStepAfter documents service request = false) :
    (d.deliver documents service gone request).Faithful documents := by
  refine faithful_run hd.own fun hlost _ => ?_
  rw [hinStep] at hlost
  cases hlost

theorem deliver_document (hd : d.Faithful documents) {service : Service} {gone : Bool}
    {request : AuthRequest} (uid : Uid) {document : UserDocument}
    (hcurrent : service.currentUser request d.app.currentUser = d.app.currentUser)
    (hinStep : d.inStepAfter documents service request = d.upToDate documents uid document)
    (hcode : ((d.observed (service.answer (completion gone request) request)).exec
        d.app).1.isSome → Castable document ∧ ∃ defaults, stored defaults = document ∧
      ((d.observed (service.answer (completion gone request) request)).exec d.app).2.store =
        { d.app with defaults }) :
    (d.deliver documents service gone request).Faithful documents := by
  unfold Device.deliver
  rw [hcurrent]
  refine faithful_run hd.own fun hup hends => ?_
  rw [hinStep, Device.upToDate, Bool.and_eq_true, decide_eq_true_eq, decide_eq_true_eq] at hup
  obtain ⟨huid, hexpected⟩ := hup
  obtain ⟨user, huser, rfl⟩ := Option.map_eq_some_iff.mp huid
  obtain ⟨hcastable, defaults, rfl, hstore⟩ := hcode hends
  change Shows documents d.updates
    ((d.observed (service.answer (completion gone request) request)).exec d.app).2.store
  rw [hstore]
  exact ⟨user, huser, hcastable, hexpected.symm⟩

theorem deliver_faithful (hd : d.Faithful documents) (service : Service) (gone : Bool)
    (request : AuthRequest) : (d.deliver documents service gone request).Faithful documents := by
  cases request with
  | signIn email password =>
      cases hsigned : service.signedIn with
      | error message =>
          refine deliver_quiet hd (by simp [Service.currentUser, hsigned, Except.toOption])
            (by simp [Device.inStepAfter, hsigned, Except.toOption]) ?_
          simp only [Device.observed, Service.answer, login.onSignIn, hsigned]
          cases gone <;> rfl
      | ok user =>
          exact deliver_lost hd (by simp [Device.inStepAfter, hsigned, Except.toOption])
  | createUser firstName lastName email password country =>
      cases hcreated : service.created with
      | error message =>
          refine deliver_quiet hd (by simp [Service.currentUser, hcreated, Except.toOption])
            (by simp [Device.inStepAfter, hcreated, Except.toOption]) ?_
          simp only [Device.observed, Service.answer, signUpBasics.onCreated, hcreated]
          cases gone <;> rfl
      | ok user =>
          exact deliver_lost hd (by simp [Device.inStepAfter, hcreated, Except.toOption])
  | loginDocument uid email =>
      cases hdocument : service.document with
      | none =>
          refine deliver_quiet hd rfl (by simp [Device.inStepAfter, hdocument]) ?_
          simp [Device.observed, Service.answer, login.onDocument, hdocument]
      | some document =>
          refine deliver_document hd uid rfl (by rw [Device.inStepAfter, hdocument]) ?_
          let _ := d.observers
          simp only [Device.observed, Service.answer, hdocument]
          exact onDocument_ends
  | userData uid =>
      cases hdocument : service.document with
      | none =>
          refine deliver_quiet hd rfl (by simp [Device.inStepAfter, hdocument]) ?_
          simp [Device.observed, Service.answer, updateUserData.onDocument, hdocument]
      | some document =>
          refine deliver_document hd uid rfl (by rw [Device.inStepAfter, hdocument]) ?_
          let _ := d.observers
          simp only [Device.observed, Service.answer, hdocument]
          exact userData_ends
  | setBasics uid firstName lastName email country =>
      cases herror : service.error with
      | true =>
          refine deliver_quiet hd rfl (by simp [Device.inStepAfter, herror]) ?_
          simp only [Device.observed, Service.answer, signUpBasics.onSaved, herror]
          cases gone <;> rfl
      | false => exact deliver_lost hd (by simp [Device.inStepAfter, herror])
  | mergeInterests uid interests =>
      refine deliver_quiet hd rfl rfl ?_
      simp only [Device.observed, Service.answer, signUpInterests.onSaved]
      cases service.error <;> cases gone <;> rfl

theorem step_faithful {event : Event} (hd : d.Faithful documents)
    (h : d.step documents event = some d') : d'.Faithful documents := by
  obtain ⟨-, h⟩ := Option.ite_none_left_eq_some.mp h
  cases event with
  | observe observers =>
      obtain rfl := Option.some.inj h
      exact ⟨hd.own, hd.shows⟩
  | start operation =>
      obtain rfl := Option.some.inj h
      exact faithful_quiet hd (body_store operation d.app)
  | deliver k service gone =>
      obtain ⟨⟨request, inFlight⟩, -, rfl⟩ := Option.map_eq_some_iff.mp h
      have hasked : { d with inFlight }.Faithful documents := ⟨hd.own, hd.shows⟩
      exact deliver_faithful hasked service gone request
  | expanded selectedInterests gone =>
      obtain ⟨-, h⟩ := Option.ite_none_right_eq_some.mp h
      obtain rfl := Option.some.inj h
      exact faithful_run hd.own fun hlost => by cases hlost
  | signOut ok =>
      obtain rfl := Option.some.inj h
      cases ok with
      | true => exact faithful_run hd.own fun hlost => by simp at hlost
      | false =>
          rw [Bool.not_false, Bool.and_true]
          exact faithful_quiet hd rfl
  | removeUserInfo =>
      obtain rfl := Option.some.inj h
      exact faithful_run hd.own fun hlost => by cases hlost
  | closeDetails firstName lastName country =>
      obtain rfl := Option.some.inj h
      let _ := d.observers
      exact faithful_edit hd closeDetails_ends
  | closeInterests interests =>
      obtain rfl := Option.some.inj h
      let _ := d.observers
      exact faithful_edit hd closeInterests_ends
  | closeSettings isCountrySpecific language =>
      obtain rfl := Option.some.inj h
      let _ := d.observers
      exact faithful_edit hd closeSettings_ends

/-! ## What the service does -/

/-- A device in step sees the document and the updates of its own user only. -/
theorem Shows.congr {documents' : Uid → Option UserDocument}
    {updates updates' : Uid → List UpdateData} {app : App} {uid : Uid}
    (hother : app.currentUser.map User.uid ≠ some uid)
    (h : ∀ uid' ≠ uid, documents' uid' = documents uid' ∧ updates' uid' = updates uid')
    (hshows : Shows documents updates app) : Shows documents' updates' app := by
  obtain ⟨user, huser, hcastable, hmirrors⟩ := hshows
  have hne : user.uid ≠ uid := by
    rintro rfl
    exact hother (by rw [huser]; rfl)
  obtain ⟨hdocument, hupdates⟩ := h user.uid hne
  refine ⟨user, huser, hcastable, ?_⟩
  rw [hupdates]
  exact hmirrors.congr hdocument

theorem lose_faithful {uid : Uid} {documents' : Uid → Option UserDocument}
    {updates : Uid → List UpdateData} (hd : d.Faithful documents)
    (hown : ∀ uid, ∀ update ∈ updates uid, update.uid = uid)
    (h : ∀ uid' ≠ uid, documents' uid' = documents uid' ∧ updates uid' = d.updates uid') :
    ({ d with updates }.lose uid).Faithful documents' := by
  refine ⟨hown, fun hinStep => ?_⟩
  obtain ⟨hinStep, hlost⟩ := Bool.and_eq_true_iff.mp hinStep
  exact (hd.shows hinStep).congr (of_decide_eq_true hlost) h

section Update

variable {uid : Uid} {update : UpdateData} {waiting : List UpdateData}

theorem own_waiting (hd : d.Faithful documents) (hupdates : d.updates uid = update :: waiting) :
    ∀ uid', ∀ update' ∈ Function.update d.updates uid waiting uid', update'.uid = uid' := by
  rw [Function.forall_update_iff d.updates fun uid updates =>
    ∀ update ∈ updates, update.uid = uid]
  refine ⟨fun update' hupdate => hd.own uid update' ?_, fun uid' _ => hd.own uid'⟩
  rw [hupdates]
  exact List.mem_cons_of_mem update hupdate

theorem uid_of_updates (hd : d.Faithful documents) (hupdates : d.updates uid = update :: waiting) :
    update.uid = uid := hd.own uid update (hupdates ▸ List.mem_cons_self)

theorem applied_faithful (hd : d.Faithful documents)
    (hupdates : d.updates uid = update :: waiting) :
    { d with updates := Function.update d.updates uid waiting }.Faithful
      (updateData documents update) := by
  refine ⟨own_waiting hd hupdates, fun hinStep => ?_⟩
  obtain rfl := uid_of_updates hd hupdates
  have hshows := hd.shows hinStep
  by_cases huser : d.app.currentUser.map User.uid = some update.uid
  · obtain ⟨user, hcurrent, hcastable, hmirrors⟩ := hshows
    rw [hcurrent] at huser
    replace huser : user.uid = update.uid := Option.some.inj huser
    refine ⟨user, hcurrent, hcastable, ?_⟩
    rw [huser, hupdates] at hmirrors
    simp only [huser, Function.update_self]
    exact hmirrors.arrive
  · refine hshows.congr huser fun uid hne => ⟨?_, ?_⟩
    · exact Function.update_of_ne hne _ documents
    · exact Function.update_of_ne hne waiting d.updates

end Update

end Device

/-! ## What all devices keep -/

def World.Faithful {ι : Type} (w : World ι) : Prop := ∀ i, (w.devices i).Faithful w.documents

theorem faithful_start {ι : Type} (documents : Uid → Option UserDocument) (apps : ι → App) :
    World.Faithful { documents, devices := fun i => { app := apps i } } := by
  refine fun i => ⟨fun uid update hupdate => ?_, fun hinStep => ?_⟩
  · exact absurd hupdate List.not_mem_nil
  · cases hinStep

section World

variable {ι : Type} [DecidableEq ι] {w w' : World ι}

theorem faithful_set (hw : w.Faithful) {i : ι} {d : Device} (hd : d.Faithful w.documents) :
    (w.set i d).Faithful :=
  (Function.forall_update_iff w.devices fun _ d => d.Faithful w.documents).mpr
    ⟨hd, fun j _ => hw j⟩

theorem faithful_apply (hw : w.Faithful) {i : ι} {uid : Uid} {accepted : Bool}
    (h : w.apply i uid accepted = some w') : w'.Faithful := by
  unfold World.apply at h
  split at h
  · cases h
  · next update waiting hupdates =>
      cases accepted with
      | false =>
          obtain rfl := Option.some.inj h
          refine faithful_set hw (lose_faithful (hw i) (own_waiting (hw i) hupdates) ?_)
          exact fun uid' hne => ⟨rfl, Function.update_of_ne hne _ _⟩
      | true =>
          obtain rfl := Option.some.inj h
          refine (Function.forall_update_iff _ fun _ => Device.Faithful _).mpr
            ⟨applied_faithful (hw i) hupdates, fun j _ => ?_⟩
          obtain rfl := uid_of_updates (hw i) hupdates
          refine lose_faithful (hw j) (hw j).own fun uid' hne => ⟨?_, rfl⟩
          exact Function.update_of_ne hne _ w.documents

theorem faithful_step {a : Action ι} (hw : w.Faithful) (h : (machine ι).step w a = some w') :
    w'.Faithful := by
  change w.step a = some w' at h
  cases a with
  | launch i =>
      obtain rfl := Option.some.inj h
      exact faithful_set hw (launch_faithful (hw i))
  | on i event =>
      obtain ⟨d, hd, rfl⟩ := Option.map_eq_some_iff.mp h
      exact faithful_set hw (step_faithful (hw i) hd)
  | apply i uid accepted => exact faithful_apply hw h
  | replace uid document =>
      obtain rfl := Option.some.inj h
      refine fun j => lose_faithful (hw j) (hw j).own fun uid' hne => ⟨?_, rfl⟩
      exact Function.update_of_ne hne document w.documents

end World

/-! ## Devices mirror their account -/

/-- What a device in step stores is what the document of its user will be once its own updates
have been applied. Two that are in step with one user, and have no updates left, store the
same. -/
structure Mirrored {ι : Type} (w : World ι) : Prop where
  mirrors : ∀ i, (w.devices i).inStep = true → ∃ user, (w.devices i).app.currentUser = some user ∧
    ((w.devices i).updates user.uid).foldl updateData w.documents user.uid =
      some (stored (w.devices i).app.defaults)
  agree : ∀ i j uid, (w.devices i).inStep = true → (w.devices j).inStep = true →
    (w.devices i).uid = some uid → (w.devices j).uid = some uid →
      (w.devices i).updates uid = [] → (w.devices j).updates uid = [] →
        stored (w.devices i).app.defaults = stored (w.devices j).app.defaults

theorem World.Faithful.mirrored {ι : Type} {w : World ι} (hw : w.Faithful) : Mirrored w := by
  have hmirrors : ∀ i, (w.devices i).inStep = true →
      ∃ user, (w.devices i).app.currentUser = some user ∧
        ((w.devices i).updates user.uid).foldl updateData w.documents user.uid =
          some (stored (w.devices i).app.defaults) := by
    intro i hinStep
    obtain ⟨user, huser, -, hmirrors⟩ := (hw i).shows hinStep
    exact ⟨user, huser, hmirrors.symm⟩
  have hrest : ∀ i uid, (w.devices i).inStep = true → (w.devices i).uid = some uid →
      (w.devices i).updates uid = [] →
        w.documents uid = some (stored (w.devices i).app.defaults) := by
    intro i uid hinStep huid hupdates
    obtain ⟨user, huser, hdocument⟩ := hmirrors i hinStep
    rw [Device.uid, huser] at huid
    obtain rfl := Option.some.inj huid
    rwa [hupdates] at hdocument
  refine ⟨hmirrors, fun i j uid hi hj hui huj hwi hwj => ?_⟩
  exact Option.some.inj ((hrest i uid hi hui hwi).symm.trans (hrest j uid hj huj hwj))

def reader : User := ⟨"reader", some "reader@news.com"⟩

def readerDocument : UserDocument where
  firstname := some (.string "Ana")
  lastname := some (.string "Petrova")
  country := some (.dictionary [("short", "bg"), ("full", "Bulgaria")])
  interests := some (.strings ["business"])

/-- What both devices have changed. -/
def movedDocument : UserDocument where
  firstname := some (.string "Maria")
  lastname := some (.string "Petrova")
  country := some (.dictionary [("short", "us"), ("full", "United States")])
  interests := some (.strings ["business", "health"])

/-- Two devices log in, each of them edits the profile, and both are launched again. -/
def twoDevices : List (Action Bool) :=
  let served : Service := { signedIn := .ok reader, document := some readerDocument }
  let changed : Service := { document := some movedDocument }
  [.on true (.start (.login "reader@news.com" "Secret12")), .on true (.deliver 0 served false),
    .on true (.deliver 0 served false),
    .on false (.start (.login "reader@news.com" "Secret12")), .on false (.deliver 0 served false),
    .on false (.deliver 0 served false),
    .on true (.closeDetails "Maria" "" [("short", "us"), ("full", "United States")]),
    .on false (.closeInterests (some ["business", "health"])), .apply true "reader" true,
    .apply false "reader" true, .launch true, .launch false,
    .on true (.deliver 0 changed false), .on false (.deliver 0 changed false)]

example :
    let documents := Function.update (fun _ => none) "reader" (some readerDocument)
    ((machine Bool).run { documents, devices := fun _ => {} } twoDevices).map (fun w =>
      [true, false].map fun i => ((w.devices i).inStep, stored (w.devices i).app.defaults)) =
      some [(true, movedDocument), (true, movedDocument)] := by decide +kernel

end NewsFlash.Accounts.Devices
