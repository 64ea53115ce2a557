import NewsFlash.Screens.Session

/-!
# The root of the window and the user

The tab bar is on its own for a user who is signed in, and in `AuthVC` for nobody. `InStep` says
exactly which steps leave the root in step with the user. Whatever the steps, the last screen of
the sign-up, which asks for the interests, is never shown.
-/

namespace NewsFlash.Screens.Session

open NewsFlash.Library NewsFlash.Models NewsFlash.Models.Authentication NewsFlash.Accounts
open NewsFlash.Screens.Lifetime (MainPart animated)

/-! ## The root in step with the user -/

namespace State

/-- The owners of the logins that are about to show the tab bar. -/
def leading (s : State) : List Owner :=
  (s.inFlight.filter fun entry => isLoginDocument entry.1).filterMap Prod.snd ++
    (s.animations.filter fun entry => entry.1 = .showLoggedVC).map Prod.snd

def Leads (s : State) : Prop := ∃ id ∈ ids s.frames, Owner.screen id ∈ s.leading

instance (s : State) : Decidable s.Leads := inferInstanceAs (Decidable (∃ _ ∈ _, _))

def SignsOut (s : State) : Prop :=
  ∃ profile ∈ s.profile, (MainPart.showAuthVC, Owner.profile profile.id) ∈ s.animations

instance (s : State) : Decidable s.SignsOut := inferInstanceAs (Decidable (∃ _ ∈ _, _))

/-- The tab bar is on its own for a user, and in `AuthVC` for nobody, or is about to be. -/
def InPlace (s : State) : Prop :=
  (s.root = .authVC → s.app.currentUser = none ∨ s.Leads) ∧
    (s.root = .loggedVC → s.app.currentUser.isSome ∨ s.SignsOut)

instance (s : State) : Decidable s.InPlace := inferInstanceAs (Decidable (_ ∧ _))

def InLine (s : State) : Prop := s.running = true → s.InPlace

instance (s : State) : Decidable s.InLine := inferInstanceAs (Decidable (_ → _))

/-- The interests screen is not presented, and nobody sends what it would ask for. -/
def NeverAsked (s : State) : Prop :=
  (∀ screen ∈ Frame.controllers s.frames, screen.kind ≠ .signUpInterests) ∧
    ∀ entry ∈ s.inFlight, isMerge entry.1 = false

end State

/-- What an answer may do while a guest sees the tab bar; `s` is without its request. A user who
is signed in has to be on the way to the tab bar of users. -/
def Answers (s : State) (service : Service) (owner : Option Owner) : AuthRequest → Prop
  | .signIn .. => service.signedIn.isOk = true →
      s.Leads ∨ ∃ id ∈ ids s.frames, owner = some (.screen id)
  | .loginDocument .. => service.document = none → s.app.currentUser = none ∨ s.Leads
  | .createUser .. => service.created.isOk = true → s.Leads
  | _ => True

/-- What the end of an animation may do; `s` is without it. -/
def Finishes (s : State) (presence : Presence) : MainPart → Prop
  | .showAuthVC =>
      if presence = .window then s.app.currentUser = none
      else s.root = .loggedVC → s.app.currentUser.isSome ∨ s.SignsOut
  | _ => True

/-- A sheet is not taken away from the login that leads on, an answer leaves a guest a guest or
leads on, and a sign-out shows `AuthVC` in the window before somebody signs in. -/
def InStep (s : State) : Event → Prop
  | .dismiss => s.root = .authVC →
      s.app.currentUser = none ∨ { s with frames := s.frames.tail }.Leads
  | .deliver i service _ => ∀ picked ∈ pick s.inFlight i, s.root = .authVC →
      Answers { s with inFlight := picked.2 } service picked.1.2 picked.1.1
  | .finish i presence _ => ∀ picked ∈ pick s.animations i, presence ≠ .gone →
      Finishes { s with animations := picked.2 } presence picked.1.1
  | _ => True

instance (s : State) (service : Service) (owner : Option Owner) :
    (request : AuthRequest) → Decidable (Answers s service owner request)
  | .signIn .. | .createUser .. | .loginDocument .. => inferInstanceAs (Decidable (_ → _))
  | .userData _ | .setBasics .. | .mergeInterests .. => inferInstanceAs (Decidable True)

instance (s : State) (presence : Presence) :
    (part : MainPart) → Decidable (Finishes s presence part)
  | .showAuthVC => inferInstanceAs (Decidable (if _ = _ then _ = _ else _ → _))
  | .updateView | .resetCornerRadius | .showLoggedVC | .pushSignUpInterests
  | .storeInterests => inferInstanceAs (Decidable True)

instance (s : State) : (e : Event) → Decidable (InStep s e)
  | .dismiss => inferInstanceAs (Decidable (_ → _))
  | .deliver .. | .finish .. => inferInstanceAs (Decidable (∀ _ ∈ _, _ → _))
  | .launch | .selectProfile | .signInButtonPressed | .signUpButtonPressed
  | .loginButtonPressed _ | .nextButtonPressed .. | .signUpLoginButtonPressed
  | .interestsNextButtonPressed _ | .signOut _ => inferInstanceAs (Decidable True)

/-! ## What every step keeps -/

def Expected (next : Nat) : MainPart × Owner → Prop
  | (.showLoggedVC, .screen id) | (.pushSignUpInterests, .screen id)
  | (.resetCornerRadius, .screen id) => id < next
  | (.showAuthVC, .profile _) | (.resetCornerRadius, .profile _) => True
  | _ => False

/-- No screen stands in a navigation controller, so the interests screen is never pushed; new
screens have new numbers, and a login that leads on has signed its user in. -/
structure Kept (s : State) : Prop where
  bare : Frame.Bare s.frames
  shown : ∀ id ∈ ids s.frames, id < s.next
  kinds : ∀ screen ∈ Frame.controllers s.frames, screen.kind ≠ .signUpInterests
  requests : ∀ entry ∈ s.inFlight, isMerge entry.1 = false ∧
    ∀ owner ∈ entry.2, ∃ id < s.next, owner = .screen id
  animations : ∀ entry ∈ s.animations, Expected s.next entry
  signedIn : s.running = true → s.Leads → s.app.currentUser.isSome

section Leads

variable {s s' : State} {owner : Owner}

theorem mem_leading : owner ∈ s.leading ↔
    (∃ request, isLoginDocument request = true ∧ (request, some owner) ∈ s.inFlight) ∨
      (MainPart.showLoggedVC, owner) ∈ s.animations := by
  simp [State.leading, and_comm]

theorem leads_mono (hframes : ∀ id ∈ ids s.frames, id ∈ ids s'.frames)
    (hleading : ∀ owner ∈ s.leading, owner ∈ s'.leading) (h : s.Leads) : s'.Leads := by
  obtain ⟨id, hid, hmem⟩ := h
  exact ⟨id, hframes id hid, hleading _ hmem⟩

theorem leads_congr {P : Prop} {Q : Nat → Prop} (hframes : s'.frames = s.frames)
    (hleading : ∀ id, Owner.screen id ∈ s'.leading ↔ Owner.screen id ∈ s.leading ∨ (P ∧ Q id)) :
    s'.Leads ↔ s.Leads ∨ (P ∧ ∃ id ∈ ids s.frames, Q id) := by
  unfold State.Leads
  simp only [hframes, hleading]
  grind

theorem inPlace_mono (hroot : s'.root = s.root) (huser : s'.app.currentUser = s.app.currentUser)
    (hleads : s.Leads → s'.Leads) (hsigns : s.SignsOut → s'.SignsOut) (h : s.InPlace) :
    s'.InPlace := by
  unfold State.InPlace
  rw [hroot, huser]
  exact ⟨fun hr => (h.1 hr).imp_right hleads, fun hr => (h.2 hr).imp_right hsigns⟩

theorem Kept.leading_lt (hs : Kept s) {id : Nat} (h : Owner.screen id ∈ s.leading) :
    id < s.next := by
  rcases mem_leading.mp h with ⟨request, -, hmem⟩ | hmem
  · obtain ⟨other, hlt, hother⟩ := (hs.requests _ hmem).2 _ rfl
    obtain rfl := Owner.screen.inj hother
    exact hlt
  · exact hs.animations _ hmem

end Leads

/-! ## Screens come and go -/

section Screens

variable {s : State}

theorem Expected.mono {n m : Nat} (hle : n ≤ m) {entry : MainPart × Owner} (h : Expected n entry) :
    Expected m entry := by
  obtain ⟨part, owner⟩ := entry
  cases part <;> cases owner <;> first
    | exact h
    | exact Nat.lt_of_lt_of_le h hle

theorem ids_present (screen : Screen) (frames : List (Frame Screen)) :
    ids (Frame.present screen frames) = screen.id :: ids frames := rfl

theorem ids_tail {frames : List (Frame Screen)} {id : Nat} (h : id ∈ ids frames.tail) :
    id ∈ ids frames := by
  cases frames with
  | nil => exact h
  | cons frame frames =>
      rw [ids, Frame.controllers, List.flatMap_cons, List.map_append]
      exact List.mem_append_right _ h

theorem mem_of_front {screen : Screen} {frames : List (Frame Screen)}
    (h : Frame.front frames = some screen) : screen ∈ Frame.controllers frames := by
  obtain ⟨frame, hframe, hscreen⟩ := Option.bind_eq_some_iff.mp h
  exact List.mem_flatMap.mpr
    ⟨frame, List.mem_of_head? hframe, List.mem_of_head? hscreen⟩

theorem Kept.skip (hs : Kept s) : Kept { s with next := s.next + 1 } where
  bare := hs.bare
  shown id hid := Nat.lt_succ_of_lt (hs.shown id hid)
  kinds := hs.kinds
  requests entry hentry := by
    refine ⟨(hs.requests entry hentry).1, fun owner howner => ?_⟩
    obtain ⟨id, hlt, hid⟩ := (hs.requests entry hentry).2 owner howner
    exact ⟨id, Nat.lt_succ_of_lt hlt, hid⟩
  animations entry hentry := (hs.animations entry hentry).mono (Nat.le_succ _)
  signedIn := hs.signedIn

theorem kept_present (hs : Kept s) {kind : Kind} (hkind : kind ≠ .signUpInterests) :
    Kept { s with frames := Frame.present ⟨s.next, kind⟩ s.frames, next := s.next + 1 } where
  bare := hs.bare.present
  shown id hid := by
    rcases List.mem_cons.mp hid with rfl | hid
    · exact Nat.lt_succ_self _
    · exact Nat.lt_succ_of_lt (hs.shown id hid)
  kinds screen hscreen := by
    rcases List.mem_cons.mp hscreen with rfl | hscreen
    · exact hkind
    · exact hs.kinds screen hscreen
  requests := hs.skip.requests
  animations := hs.skip.animations
  signedIn hrunning hleads := by
    obtain ⟨id, hid, hmem⟩ := hleads
    rcases List.mem_cons.mp hid with rfl | hid
    · exact absurd (hs.leading_lt hmem) (Nat.lt_irrefl _)
    · exact hs.signedIn hrunning ⟨id, hid, hmem⟩

theorem inPlace_present (screen : Screen) (next : Nat) (h : s.InPlace) :
    { s with frames := Frame.present screen s.frames, next }.InPlace := by
  refine inPlace_mono (s := s) rfl rfl (leads_mono (fun id hid => ?_) fun _ howner => howner) id h
  rw [ids_present]
  exact List.mem_cons_of_mem _ hid

theorem kept_dismiss (hs : Kept s) : Kept { s with frames := s.frames.tail } where
  bare := hs.bare.tail
  shown id hid := hs.shown id (ids_tail hid)
  kinds screen hscreen := by
    obtain ⟨frame, hframe, hmem⟩ := List.mem_flatMap.mp hscreen
    exact hs.kinds screen (List.mem_flatMap.mpr ⟨frame, List.mem_of_mem_tail hframe, hmem⟩)
  requests := hs.requests
  animations := hs.animations
  signedIn hrunning := by
    rintro ⟨id, hid, hmem⟩
    exact hs.signedIn hrunning ⟨id, ids_tail hid, hmem⟩

theorem kept_replaceRoot (hs : Kept s) (root : Root) (presence : Presence) :
    Kept (s.replaceRoot root presence) := by
  unfold State.replaceRoot
  split
  · refine { hs with bare := Frame.bare_nil, shown := ?_, kinds := ?_, signedIn := ?_ }
    · exact fun _ hid => absurd hid List.not_mem_nil
    · exact fun _ hscreen => absurd hscreen List.not_mem_nil
    · rintro - ⟨id, hid, -⟩
      cases hid
  · exact hs

theorem kept_selectProfile (hs : Kept s) (profile : Profile) :
    Kept { s with profile := some profile, next := s.next + 1 } :=
  { hs.skip with }

theorem inPlace_selectProfile {profile : Profile} {next : Nat} (hnone : s.profile = none)
    (h : s.InPlace) : { s with profile := some profile, next }.InPlace := by
  refine inPlace_mono (s := s) rfl rfl id (fun hsigns => ?_) h
  obtain ⟨other, hother, -⟩ := hsigns
  rw [hnone] at hother
  cases hother

end Screens

/-! ## Buttons -/

section Buttons

variable {s s' : State}

theorem pressed_eq {kind : Kind} {press : State → Owner → State}
    (h : s.pressed kind press = some s') : ∃ screen, Frame.front s.frames = some screen ∧
      screen.kind = kind ∧ s' = press { s with busy := .screen screen.id :: s.busy }
        (.screen screen.id) := by
  obtain ⟨screen, hfront, h⟩ := Option.bind_eq_some_iff.mp h
  split at h
  · next hpress => exact ⟨screen, hfront, hpress.1, (Option.some.inj h).symm⟩
  · cases h

/-- The two forms send a request that neither logs in to the end nor asks for interests. -/
theorem login_request {form : Validation.Form} {request : AuthRequest}
    (h : Validation.LoginViewController.loginButtonPressed form = .ok request) :
    isMerge request = false ∧ isLoginDocument request = false := by
  obtain ⟨-, rfl⟩ := Validation.LoginViewController.loginButtonPressed_ok.mp h
  exact ⟨rfl, rfl⟩

theorem next_request {form : Validation.Form} {country : Country} {request : AuthRequest}
    (h : Validation.SignUpBasicsViewController.nextButtonPressed form country = .ok request) :
    isMerge request = false ∧ isLoginDocument request = false := by
  obtain ⟨-, rfl⟩ := Validation.SignUpBasicsViewController.nextButtonPressed_ok.mp h
  exact ⟨rfl, rfl⟩

theorem leads_submit (owner : Owner) {result : Except String AuthRequest}
    (hresult : ∀ request, result = .ok request → isLoginDocument request = false) :
    (s.submit owner result).Leads ↔ s.Leads := by
  have hleading : (s.submit owner result).leading = s.leading := by
    cases result with
    | error message => simp [State.submit, State.leading]
    | ok request => simp [State.submit, State.leading, hresult request rfl]
  have hframes : (s.submit owner result).frames = s.frames := by
    cases result <;> rfl
  unfold State.Leads
  rw [hleading, hframes]

theorem kept_submit {id : Nat} {result : Except String AuthRequest} (hs : Kept s)
    (hid : id < s.next) (hresult : ∀ request, result = .ok request →
      isMerge request = false ∧ isLoginDocument request = false) :
    Kept (s.submit (.screen id) result) := by
  have hleads := leads_submit (s := s) (.screen id) fun request hrequest =>
    (hresult request hrequest).2
  cases result with
  | error message =>
      have hsigned := fun hrunning h => hs.signedIn hrunning (hleads.mp h)
      refine { hs with animations := ?_, signedIn := hsigned }
      intro entry hentry
      rcases List.mem_append.mp hentry with hentry | hentry
      · exact hs.animations entry hentry
      · obtain rfl := List.mem_singleton.mp hentry
        exact hid
  | ok request =>
      have hsigned := fun hrunning h => hs.signedIn hrunning (hleads.mp h)
      refine { hs with requests := ?_, signedIn := hsigned }
      intro entry hentry
      rcases List.mem_append.mp hentry with hentry | hentry
      · exact hs.requests entry hentry
      · obtain rfl := List.mem_singleton.mp hentry
        refine ⟨(hresult request rfl).1, fun owner howner => ?_⟩
        obtain rfl := Option.some.inj howner
        exact ⟨id, hid, rfl⟩

theorem inPlace_submit (owner : Owner) {result : Except String AuthRequest}
    (hresult : ∀ request, result = .ok request → isLoginDocument request = false)
    (h : s.InPlace) : (s.submit owner result).InPlace := by
  have hleads := leads_submit (s := s) owner hresult
  cases result with
  | error message =>
      refine inPlace_mono (s := s) rfl rfl hleads.mpr ?_ h
      rintro ⟨profile, hprofile, hmem⟩
      exact ⟨profile, hprofile, List.mem_append_left _ hmem⟩
  | ok request => exact inPlace_mono (s := s) rfl rfl hleads.mpr id h

theorem submitted {kind : Kind} {result : Except String AuthRequest} (hs : Kept s)
    (hresult : ∀ request, result = .ok request →
      isMerge request = false ∧ isLoginDocument request = false)
    (h : s.pressed kind (fun s owner => s.submit owner result) = some s') :
    Kept s' ∧ (s.InPlace → s'.InPlace) := by
  obtain ⟨screen, hfront, -, rfl⟩ := pressed_eq h
  have hid : screen.id ∈ ids s.frames := List.mem_map_of_mem (mem_of_front hfront)
  have hpressed : Kept { s with busy := .screen screen.id :: s.busy } := { hs with }
  refine ⟨kept_submit hpressed (hs.shown _ hid) hresult, fun hplace => ?_⟩
  exact inPlace_submit (s := { s with busy := .screen screen.id :: s.busy }) _
    (fun request hrequest => (hresult request hrequest).2) hplace

end Buttons

/-! ## Sign-out and launch -/

section Process

variable {s : State}

theorem launch_eq : s.launch =
    { app := { currentUser := s.app.currentUser, defaults := s.app.defaults }
      root := if s.app.currentUser.isSome then .loggedVC else .authVC
      next := s.next
      inFlight := s.app.currentUser.toList.map fun user => (.userData user.uid, none) } := by
  unfold State.launch
  cases huser : s.app.currentUser with
  | none => simp [State.react, SignUp.SceneDelegate.willConnectTo]
  | some user =>
      simp [State.react, SignUp.SceneDelegate.willConnectTo, updateUserData,
        App.forcedCurrentUser_apply]

theorem kept_launch : Kept s.launch := by
  rw [launch_eq]
  refine ⟨Frame.bare_nil, ?_, ?_, ?_, ?_, ?_⟩
  · exact fun _ hid => absurd hid List.not_mem_nil
  · exact fun _ hscreen => absurd hscreen List.not_mem_nil
  · intro entry hentry
    obtain ⟨user, -, rfl⟩ := List.mem_map.mp hentry
    exact ⟨rfl, fun _ howner => by cases howner⟩
  · exact fun _ hentry => absurd hentry List.not_mem_nil
  · rintro - ⟨id, hid, -⟩
    cases hid

theorem inPlace_launch : s.launch.InPlace := by
  rw [launch_eq]
  cases huser : s.app.currentUser <;> simp [State.InPlace]

end Process

/-! ## Answers -/

def State.answered (s : State) (service : Service) (request : AuthRequest) (owner : Option Owner)
    (app : App) : State :=
  { s with
    app
    inFlight := s.inFlight ++ (issues service request).map fun next => (next, owner)
    animations := s.animations ++ owner.toList.flatMap fun owner =>
      (parts service request).map fun part => (part, owner) }

section Answers

variable {s s' : State} {i : Nat} {service : Service} {presence : Presence}
  {request : AuthRequest} {owner : Option Owner} {rest : List (AuthRequest × Option Owner)}
  {app : App}

theorem answers_of_stop (h : ((service.answer Callback.complete request).exec app).1 = none ∨
      ((service.answer Callback.complete request).exec app).2.completed ≠ []) :
    Answers s service owner request := by
  cases request with
  | signIn email password =>
      intro hok
      cases hsigned : service.signedIn with
      | error message =>
          rw [hsigned] at hok
          cases hok
      | ok user => simp [Service.answer, login.onSignIn, hsigned] at h
  | loginDocument uid email =>
      intro hdocument
      simp [Service.answer, login.onDocument, hdocument] at h
  | createUser firstName lastName email password country =>
      intro hok
      cases hcreated : service.created with
      | error message =>
          rw [hcreated] at hok
          cases hok
      | ok user => simp [Service.answer, signUpBasics.onCreated, hcreated] at h
  | userData | setBasics | mergeInterests => trivial

theorem react_cases (s : State) (owner : Option Owner) (presence : Presence)
    (part : Option String → MainPart) (code : Callback App AuthRequest (Option String) Unit) :
    (((code.exec s.app).1 = none ∨ (code.exec s.app).2.completed ≠ []) ∧
      ∃ app, s.react owner presence part code = { s with app, running := false }) ∨
    ∃ t, code.exec s.app = (some (), t) ∧ s.react owner presence part code = { s with
      app := t.store
      inFlight := s.inFlight ++ t.issued.map fun request => (request, owner)
      animations := s.animations ++ owner.toList.flatMap fun owner =>
        t.completed.map fun message => (part message, owner) } := by
  unfold State.react
  split
  · next t hexec => exact Or.inl ⟨Or.inl (by rw [hexec]), t.store, rfl⟩
  · next t hexec =>
      split
      · next hgone => exact Or.inl ⟨Or.inr (by rw [hexec]; exact hgone.1), t.store, rfl⟩
      · exact Or.inr ⟨t, hexec, rfl⟩

/-- The process ends only with an answer that `Answers` does not speak of. -/
theorem deliver_cases (h : s.perform (.deliver i service presence) = some s') :
    ∃ request owner rest, pick s.inFlight i = some ((request, owner), rest) ∧
      (((∀ r : State, Answers r service owner request) ∧
        ∃ app, s' = { s with app, inFlight := rest, running := false }) ∨
      ∃ app, app.currentUser = service.currentUser request s.app.currentUser ∧
        s' = { s with inFlight := rest }.answered service request owner app) := by
  obtain ⟨⟨⟨request, owner⟩, rest⟩, hpick, h⟩ := Option.bind_eq_some_iff.mp h
  refine ⟨request, owner, rest, hpick, ?_⟩
  dsimp only at h
  split at h
  · obtain rfl := Option.some.inj h
    rcases react_cases _ owner presence (animated request)
      (service.answer Callback.complete request) with ⟨hstop, app, heq⟩ | ⟨t, hexec, heq⟩
    · exact Or.inl ⟨fun _ => answers_of_stop hstop, app, heq⟩
    · obtain ⟨huser, hissued, hparts⟩ := answer_trace hexec
      refine Or.inr ⟨t.store, huser, heq.trans ?_⟩
      unfold State.answered
      rw [← hissued, ← hparts]
      simp only [List.map_map, Function.comp_def]
  · cases h

theorem kept_stop (hs : Kept s) (app : App) : Kept { s with app, running := false } :=
  { hs with signedIn := fun hrunning => by cases hrunning }

/-- A login that leads on goes on to do so, unless it gets no document. -/
theorem leads_answered :
    (s.answered service request owner app).Leads ↔ s.Leads ∨
      (leadsOn service request = true ∧ ∃ id ∈ ids s.frames, owner = some (.screen id)) := by
  have hmem : ∀ id, Owner.screen id ∈ (s.answered service request owner app).leading ↔
      Owner.screen id ∈ s.leading ∨
        (leadsOn service request = true ∧ owner = some (.screen id)) := by
    intro id
    rw [mem_leading, mem_leading, leadsOn_iff]
    simp only [State.answered, List.mem_append, List.mem_map, List.mem_flatMap, Prod.mk.injEq,
      Option.mem_toList]
    grind
  exact leads_congr rfl hmem

theorem leads_pick (hpick : pick s.inFlight i = some ((request, owner), rest)) :
    s.Leads ↔ { s with inFlight := rest }.Leads ∨
      (isLoginDocument request = true ∧ ∃ id ∈ ids s.frames, owner = some (.screen id)) := by
  have hmem : ∀ id, Owner.screen id ∈ s.leading ↔
      Owner.screen id ∈ ({ s with inFlight := rest } : State).leading ∨
        (isLoginDocument request = true ∧ owner = some (.screen id)) := by
    intro id
    rw [mem_leading, mem_leading]
    simp only [(pick_perm hpick).mem_iff, List.mem_cons, Prod.mk.injEq]
    grind
  exact leads_congr rfl hmem

theorem currentUser_isSome {current : Option User} (h : current.isSome) :
    (service.currentUser request current).isSome := by
  cases request <;> simp [Service.currentUser, h]

theorem expected_parts {next id : Nat} (hid : id < next) (hmerge : isMerge request = false)
    {part : MainPart} (h : part ∈ parts service request) : Expected next (part, .screen id) := by
  cases request with
  | signIn email password =>
      cases hsigned : service.signedIn <;> simp [parts, hsigned, Except.isOk, Except.toBool] at h
      rw [h]
      exact hid
  | loginDocument uid email =>
      cases hdocument : service.document <;> simp [parts, hdocument] at h
      rw [h]
      exact hid
  | userData uid => cases h
  | createUser firstName lastName email password country =>
      cases hcreated : service.created <;> simp [parts, hcreated, Except.isOk, Except.toBool] at h
      rw [h]
      exact hid
  | setBasics uid firstName lastName email country =>
      cases herror : service.error <;> simp [parts, herror] at h <;> rw [h] <;> exact hid
  | mergeInterests uid interests => cases hmerge

theorem kept_answered (hs : Kept s)
    (hpick : pick s.inFlight i = some ((request, owner), rest))
    (huser : app.currentUser = service.currentUser request s.app.currentUser) :
    Kept ({ s with inFlight := rest }.answered service request owner app) where
  bare := hs.bare
  shown := hs.shown
  kinds := hs.kinds
  requests entry hentry := by
    rcases List.mem_append.mp hentry with hentry | hentry
    · exact hs.requests entry (mem_of_mem_pick hpick hentry)
    · obtain ⟨next, hnext, rfl⟩ := List.mem_map.mp hentry
      exact ⟨isMerge_issues hnext, (hs.requests _ (mem_of_pick hpick)).2⟩
  animations entry hentry := by
    rcases List.mem_append.mp hentry with hentry | hentry
    · exact hs.animations entry hentry
    · obtain ⟨owner, howner, hentry⟩ := List.mem_flatMap.mp hentry
      obtain ⟨part, hpart, rfl⟩ := List.mem_map.mp hentry
      obtain ⟨hmerge, howners⟩ := hs.requests _ (mem_of_pick hpick)
      obtain ⟨id, hid, rfl⟩ := howners owner (Option.mem_toList.mp howner)
      exact expected_parts hid hmerge hpart
  signedIn hrunning hleads := by
    change app.currentUser.isSome
    rw [huser]
    rcases leads_answered.mp hleads with hleads | ⟨hon, hshown⟩
    · exact currentUser_isSome (hs.signedIn hrunning ((leads_pick hpick).mpr (Or.inl hleads)))
    · cases request with
      | signIn email password =>
          obtain ⟨user, hsigned⟩ : ∃ user, service.signedIn = .ok user := by
            cases hsigned : service.signedIn with
            | error message => simp [leadsOn, hsigned, Except.isOk, Except.toBool] at hon
            | ok user => exact ⟨user, rfl⟩
          simp [Service.currentUser, hsigned, Except.toOption]
      | loginDocument uid email =>
          exact hs.signedIn hrunning ((leads_pick hpick).mpr (Or.inr ⟨rfl, hshown⟩))
      | userData | createUser | setBasics | mergeInterests => cases hon

/-- `Answers` is what it takes to leave a guest a guest or to lead on. -/
theorem answers_iff {r : State} (hplace : r.app.currentUser = none ∨ r.Leads ∨
      (isLoginDocument request = true ∧ ∃ id ∈ ids r.frames, owner = some (.screen id))) :
    (service.currentUser request r.app.currentUser = none ∨ r.Leads ∨
      (leadsOn service request = true ∧ ∃ id ∈ ids r.frames, owner = some (.screen id))) ↔
      Answers r service owner request := by
  cases request with
  | signIn email password =>
      cases hsigned : service.signedIn with
      | error message =>
          simpa [Answers, hsigned, Except.isOk, Except.toBool, Service.currentUser,
            Except.toOption, leadsOn, isLoginDocument] using hplace
      | ok user =>
          simp [Answers, hsigned, Except.isOk, Except.toBool, Service.currentUser,
            Except.toOption, leadsOn]
  | loginDocument uid email =>
      cases hdocument : service.document with
      | none => simp [Answers, hdocument, Service.currentUser, leadsOn]
      | some document =>
          simpa [Answers, hdocument, Service.currentUser, leadsOn, isLoginDocument] using hplace
  | createUser firstName lastName email password country =>
      cases hcreated : service.created with
      | error message =>
          simpa [Answers, hcreated, Except.isOk, Except.toBool, Service.currentUser,
            Except.toOption, leadsOn, isLoginDocument] using hplace
      | ok user =>
          simp [Answers, hcreated, Except.isOk, Except.toBool, Service.currentUser,
            Except.toOption, leadsOn]
  | userData | setBasics | mergeInterests =>
      simpa [Answers, Service.currentUser, leadsOn, isLoginDocument] using hplace

theorem inPlace_answered (hplace : s.InPlace)
    (hpick : pick s.inFlight i = some ((request, owner), rest))
    (huser : app.currentUser = service.currentUser request s.app.currentUser) :
    ({ s with inFlight := rest }.answered service request owner app).InPlace ↔
      (s.root = .authVC → Answers { s with inFlight := rest } service owner request) := by
  obtain ⟨hguest, hsignedIn⟩ := hplace
  have hsigned : s.root = .loggedVC → app.currentUser.isSome ∨
      ({ s with inFlight := rest }.answered service request owner app).SignsOut := by
    intro hroot
    rcases hsignedIn hroot with hsome | ⟨profile, hprofile, hmem⟩
    · rw [huser]
      exact Or.inl (currentUser_isSome hsome)
    · exact Or.inr ⟨profile, hprofile, List.mem_append_left _ hmem⟩
  rw [leads_pick hpick] at hguest
  change ((s.root = .authVC → app.currentUser = none ∨ _) ∧ (s.root = .loggedVC → _)) ↔ _
  rw [leads_answered, huser]
  constructor
  · exact fun h hroot => (answers_iff (r := { s with inFlight := rest }) (hguest hroot)).mp
      (h.1 hroot)
  · intro h
    refine ⟨fun hroot => ?_, huser ▸ hsigned⟩
    exact (answers_iff (r := { s with inFlight := rest }) (hguest hroot)).mpr (h hroot)

theorem delivered (hs : Kept s) (hrunning : s.running = true)
    (h : s.perform (.deliver i service presence) = some s') :
    Kept s' ∧ (s.InPlace → (s'.InLine ↔ InStep s (.deliver i service presence))) := by
  obtain ⟨request, owner, rest, hpick, hcases⟩ := deliver_cases h
  have hstep : InStep s (.deliver i service presence) ↔
      (s.root = .authVC → Answers { s with inFlight := rest } service owner request) := by
    simp only [InStep, hpick, Option.mem_some_iff, forall_eq']
  rw [hstep]
  rcases hcases with ⟨hanswers, app, rfl⟩ | ⟨app, huser, rfl⟩
  · have hrest : Kept { s with inFlight := rest } := { hs with
      requests := fun entry hentry => hs.requests entry (mem_of_mem_pick hpick hentry)
      signedIn := fun hrunning h => hs.signedIn hrunning ((leads_pick hpick).mpr (Or.inl h)) }
    refine ⟨kept_stop hrest app, fun _ => iff_of_true ?_ fun _ => hanswers _⟩
    intro hstopped
    cases hstopped
  · refine ⟨kept_answered hs hpick huser, fun hplace => ?_⟩
    rw [← inPlace_answered hplace hpick huser]
    exact ⟨fun hline => hline hrunning, fun hplace _ => hplace⟩

end Answers

/-! ## Ends of animations -/

section Finishes

variable {s s' : State} {i : Nat} {presence : Presence} {part : MainPart} {owner : Owner}
  {rest : List (MainPart × Owner)} {busy : List Owner} {selectedInterests : List String}

theorem leads_finish (busy : List Owner)
    (hpick : pick s.animations i = some ((part, owner), rest)) :
    s.Leads ↔ { s with animations := rest, busy }.Leads ∨
      (part = .showLoggedVC ∧ ∃ id ∈ ids s.frames, owner = .screen id) := by
  have hmem : ∀ id, Owner.screen id ∈ s.leading ↔
      Owner.screen id ∈ ({ s with animations := rest, busy } : State).leading ∨
        (part = .showLoggedVC ∧ owner = .screen id) := by
    intro id
    rw [mem_leading, mem_leading]
    simp only [(pick_perm hpick).mem_iff, List.mem_cons, Prod.mk.injEq]
    grind
  exact leads_congr rfl hmem

theorem signsOut_finish (hpick : pick s.animations i = some ((part, owner), rest))
    (hpart : part ≠ .showAuthVC) (h : s.SignsOut) :
    { s with animations := rest, busy }.SignsOut := by
  obtain ⟨profile, hprofile, hmem⟩ := h
  refine ⟨profile, hprofile, ?_⟩
  rcases List.mem_cons.mp ((pick_perm hpick).mem_iff.mp hmem) with heq | hmem
  · exact absurd (Prod.mk.inj heq).1.symm hpart
  · exact hmem

theorem kept_finish (busy : List Owner) (hs : Kept s)
    (hpick : pick s.animations i = some ((part, owner), rest)) :
    Kept { s with animations := rest, busy } :=
  { hs with
    animations := fun entry hentry => hs.animations entry (mem_of_mem_pick hpick hentry)
    signedIn := fun hrunning h => hs.signedIn hrunning ((leads_finish busy hpick).mpr (Or.inl h)) }

/-- Nobody can push the interests screen. -/
theorem kept_complete (hs : Kept s) (hexpected : Expected s.next (part, owner)) :
    Kept (s.complete presence selectedInterests part owner) := by
  cases part with
  | showLoggedVC => exact kept_replaceRoot hs .loggedVC presence
  | showAuthVC =>
      have hremoved : Kept (s.withDefaults UserRepository.removeUserInfo) := { hs with }
      exact kept_replaceRoot hremoved .authVC presence
  | pushSignUpInterests =>
      cases owner with
      | profile id => exact hexpected.elim
      | screen id =>
          rw [State.complete, hs.bare.push]
          exact hs.skip
  | resetCornerRadius => cases owner <;> exact hs
  | updateView => exact hexpected.elim
  | storeInterests => exact hexpected.elim

theorem inPlace_finish (busy : List Owner) (hplace : s.InPlace)
    (hpick : pick s.animations i = some ((part, owner), rest)) (hpart : part ≠ .showAuthVC)
    (howner : ∀ id ∈ ids s.frames, part = .showLoggedVC → owner ≠ .screen id) :
    { s with animations := rest, busy }.InPlace := by
  refine inPlace_mono (s := s) rfl rfl (fun hleads => ?_) (signsOut_finish hpick hpart) hplace
  rcases (leads_finish busy hpick).mp hleads with hleads | ⟨hshow, id, hid, heq⟩
  · exact hleads
  · exact absurd heq (howner id hid hshow)

theorem allows_memory (id : Nat) :
    s.allows (.screen id) .memory = !(ids s.frames).contains id := rfl

theorem complete_running : (s.complete presence selectedInterests part owner).running = s.running := by
  unfold State.complete State.replaceRoot State.withDefaults
  split <;> first | rfl | (split <;> rfl)

theorem inPlace_showLoggedVC {id : Nat} (hs : Kept s) (hrunning : s.running = true)
    (hplace : s.InPlace)
    (hpick : pick s.animations i = some ((.showLoggedVC, .screen id), rest))
    (hallows : s.allows (.screen id) presence = true) (hgone : presence ≠ .gone) :
    ({ s with animations := rest, busy }.complete presence selectedInterests .showLoggedVC
      (.screen id)).InPlace := by
  cases presence with
  | window =>
      have hmem : id ∈ ids s.frames := List.contains_iff_mem.mp hallows
      have hleads : s.Leads := (leads_finish busy hpick).mpr
        (Or.inr ⟨rfl, id, hmem, rfl⟩)
      exact ⟨fun hroot => (by cases hroot), fun _ => Or.inl (hs.signedIn hrunning hleads)⟩
  | memory =>
      refine inPlace_finish busy hplace hpick MainPart.noConfusion fun other hother _ heq => ?_
      obtain rfl := Owner.screen.inj heq
      rw [allows_memory, List.contains_iff_mem.mpr hother] at hallows
      cases hallows
  | gone => exact absurd rfl hgone

theorem inPlace_showAuthVC {id : Nat} (hplace : s.InPlace)
    (hpick : pick s.animations i = some ((.showAuthVC, .profile id), rest)) :
    ({ s with animations := rest, busy }.complete presence selectedInterests .showAuthVC
      (.profile id)).InPlace ↔
      Finishes { s with animations := rest } presence .showAuthVC := by
  by_cases hwindow : presence = .window
  · obtain rfl := hwindow
    constructor
    · intro h
      rcases h.1 rfl with hnone | ⟨_, hid, _⟩
      · exact hnone
      · cases hid
    · intro h
      exact ⟨fun _ => Or.inl h, fun hroot => (by cases hroot)⟩
  · have hcomplete : { s with animations := rest, busy }.complete presence selectedInterests
        .showAuthVC (.profile id) = { s with animations := rest, busy }.withDefaults
          UserRepository.removeUserInfo := if_neg hwindow
    rw [hcomplete, Finishes, if_neg hwindow]
    constructor
    · exact fun h => h.2
    · intro h
      refine ⟨fun hroot => (hplace.1 hroot).imp_right fun hleads => ?_, h⟩
      rcases (leads_finish busy hpick).mp hleads with hleads | ⟨hshow, -⟩
      · exact hleads
      · cases hshow

theorem inPlace_complete (hs : Kept s) (hrunning : s.running = true) (hplace : s.InPlace)
    (hpick : pick s.animations i = some ((part, owner), rest))
    (hallows : s.allows owner presence = true)
    (hgone : ¬ (presence = .gone ∧ captures part owner = true)) :
    ({ s with animations := rest, busy }.complete presence selectedInterests part owner).InPlace ↔
      (presence ≠ .gone → Finishes { s with animations := rest } presence part) := by
  have hexpected := hs.animations _ (mem_of_pick hpick)
  cases part with
  | showLoggedVC =>
      cases owner with
      | profile id => exact hexpected.elim
      | screen id =>
          refine iff_of_true ?_ fun _ => trivial
          exact inPlace_showLoggedVC hs hrunning hplace hpick hallows fun h => hgone ⟨h, rfl⟩
  | showAuthVC =>
      cases owner with
      | screen id => exact hexpected.elim
      | profile id =>
          rw [inPlace_showAuthVC hplace hpick]
          exact ⟨fun h _ => h, fun h => h fun h => hgone ⟨h, rfl⟩⟩
  | pushSignUpInterests =>
      refine iff_of_true ?_ fun _ => trivial
      have hrest := inPlace_finish busy hplace hpick MainPart.noConfusion
        fun _ _ h => MainPart.noConfusion h
      cases owner with
      | profile id => exact hexpected.elim
      | screen id =>
          rw [State.complete, hs.bare.push]
          exact hrest
  | resetCornerRadius =>
      refine iff_of_true ?_ fun _ => trivial
      have hrest := inPlace_finish busy hplace hpick MainPart.noConfusion
        fun _ _ h => MainPart.noConfusion h
      cases owner <;> exact hrest
  | updateView => exact hexpected.elim
  | storeInterests => exact hexpected.elim

theorem finished (hs : Kept s) (hrunning : s.running = true)
    (h : s.perform (.finish i presence selectedInterests) = some s') :
    Kept s' ∧ (s.InPlace → (s'.InLine ↔ InStep s (.finish i presence selectedInterests))) := by
  obtain ⟨⟨⟨part, owner⟩, rest⟩, hpick, h⟩ := Option.bind_eq_some_iff.mp h
  have hstep : InStep s (.finish i presence selectedInterests) ↔
      (presence ≠ .gone → Finishes { s with animations := rest } presence part) := by
    simp only [InStep, hpick, Option.mem_some_iff, forall_eq']
  rw [hstep]
  dsimp only at h
  split at h
  · next hallows =>
      split at h
      · next hgone =>
          obtain rfl := Option.some.inj h
          refine ⟨kept_stop (kept_finish s.busy hs hpick) s.app, fun _ => ?_⟩
          exact iff_of_true (fun hstopped => by cases hstopped) fun h => absurd hgone.1 h
      · next hgone =>
          obtain rfl := Option.some.inj h
          have hexpected := hs.animations _ (mem_of_pick hpick)
          refine ⟨kept_complete (kept_finish _ hs hpick) hexpected, fun hplace => ?_⟩
          rw [← inPlace_complete hs hrunning hplace hpick hallows hgone]
          exact ⟨fun hline => hline (complete_running.trans hrunning), fun hplace _ => hplace⟩
  · cases h

end Finishes

/-! ## Every step -/

section Steps

variable {s s' : State} {e : Event}

theorem signOut_eq {ok : Bool} (h : s.perform (.signOut ok) = some s') :
    s.frames = [] ∧ ∃ profile ∈ s.profile, ∃ busy, s' = if ok then
      { s with
        app := { s.app with
          currentUser := none
          defaults := UserRepository.removeUserInfo s.app.defaults }
        busy
        animations := s.animations ++ [(.showAuthVC, .profile profile.id)] }
      else { s with
        busy
        animations := s.animations ++ [(.resetCornerRadius, .profile profile.id)] } := by
  obtain ⟨profile, hprofile, h⟩ := Option.bind_eq_some_iff.mp h
  split at h
  · next hguard =>
      obtain rfl := Option.some.inj h
      refine ⟨hguard.1, profile, hprofile, .profile profile.id :: s.busy, ?_⟩
      cases ok with
      | true => simp [State.react, signOut_apply]
      | false => simp [State.react, signOut_apply]
  · cases h

theorem kept_signOut {ok : Bool} (hs : Kept s) (h : s.perform (.signOut ok) = some s') :
    Kept s' := by
  obtain ⟨hframes, profile, -, busy, rfl⟩ := signOut_eq h
  have hanimations : ∀ part, Expected s.next (part, .profile profile.id) →
      ∀ entry ∈ s.animations ++ [(part, .profile profile.id)], Expected s.next entry := by
    intro part hpart entry hentry
    rcases List.mem_append.mp hentry with hentry | hentry
    · exact hs.animations entry hentry
    · obtain rfl := List.mem_singleton.mp hentry
      exact hpart
  have hempty : ∀ {id : Nat}, id ∉ ids s.frames := by
    intro id hid
    rw [hframes] at hid
    cases hid
  cases ok <;> exact { hs with
    animations := hanimations _ trivial
    signedIn := fun _ ⟨_, hid, _⟩ => absurd hid hempty }

theorem inPlace_signOut {ok : Bool} (h : s.perform (.signOut ok) = some s')
    (hplace : s.InPlace) : s'.InPlace := by
  obtain ⟨-, profile, hprofile, busy, rfl⟩ := signOut_eq h
  cases ok with
  | true =>
      refine ⟨fun _ => Or.inl rfl, fun _ => Or.inr ⟨profile, hprofile, ?_⟩⟩
      exact List.mem_append_right _ List.mem_cons_self
  | false =>
      refine inPlace_mono (s := s) rfl rfl (leads_mono (fun _ hid => hid) fun owner howner => ?_)
        (fun hsigns => ?_) hplace
      · rw [mem_leading] at howner ⊢
        exact howner.imp_right (List.mem_append_left _)
      · obtain ⟨other, hother, hmem⟩ := hsigns
        exact ⟨other, hother, List.mem_append_left _ hmem⟩

theorem inPlace_dismiss (hplace : s.InPlace) :
    { s with frames := s.frames.tail }.InPlace ↔ InStep s .dismiss :=
  ⟨fun h => h.1, fun h => ⟨h, hplace.2⟩⟩

theorem interests_notPressed {interests : List String} (hs : Kept s) :
    s.perform (.interestsNextButtonPressed interests) ≠ some s' := by
  intro h
  rw [State.perform] at h
  obtain ⟨screen, hfront, hkind, -⟩ := pressed_eq h
  exact hs.kinds screen (mem_of_front hfront) hkind

theorem stays {P : Prop} (hkept : Kept s') (hplace : s.InPlace → s'.InPlace) (hP : P) :
    Kept s' ∧ (s.InPlace → (s'.InLine ↔ P)) :=
  ⟨hkept, fun h => iff_of_true (fun _ => hplace h) hP⟩

theorem performed (hs : Kept s) (hrunning : s.running = true) (h : s.perform e = some s') :
    Kept s' ∧ (s.InPlace → (s'.InLine ↔ InStep s e)) := by
  cases e with
  | launch =>
      obtain rfl := Option.some.inj h
      exact stays kept_launch (fun _ => inPlace_launch) trivial
  | selectProfile =>
      rw [State.perform] at h
      split at h
      · next hguard =>
          obtain rfl := Option.some.inj h
          exact stays (kept_selectProfile hs _) (inPlace_selectProfile hguard.2) trivial
      · cases h
  | signInButtonPressed =>
      rw [State.perform] at h
      split at h
      · obtain rfl := Option.some.inj h
        exact stays (kept_present hs Kind.noConfusion) (inPlace_present _ _) trivial
      · cases h
  | signUpButtonPressed =>
      obtain ⟨screen, -, h⟩ := Option.bind_eq_some_iff.mp h
      split at h
      · obtain rfl := Option.some.inj h
        rw [hs.bare.segue]
        exact stays (kept_present hs Kind.noConfusion) (inPlace_present _ _) trivial
      · cases h
  | loginButtonPressed form =>
      obtain ⟨hkept, hplace⟩ := submitted hs (fun _ => login_request) h
      exact stays hkept hplace trivial
  | nextButtonPressed form country =>
      obtain ⟨hkept, hplace⟩ := submitted hs (fun _ => next_request) h
      exact stays hkept hplace trivial
  | signUpLoginButtonPressed =>
      obtain ⟨screen, -, h⟩ := Option.bind_eq_some_iff.mp h
      split at h
      · obtain rfl := Option.some.inj h
        rw [hs.bare.pop]
        exact stays hs id trivial
      · cases h
  | interestsNextButtonPressed interests => exact absurd h (interests_notPressed hs)
  | dismiss =>
      rw [State.perform] at h
      split at h
      · cases h
      · obtain rfl := Option.some.inj h
        refine ⟨kept_dismiss hs, fun hplace => ?_⟩
        rw [← inPlace_dismiss hplace]
        exact ⟨fun hline => hline hrunning, fun hplace _ => hplace⟩
  | signOut ok => exact stays (kept_signOut hs h) (inPlace_signOut h) trivial
  | deliver i service presence => exact delivered hs hrunning h
  | finish i presence selectedInterests => exact finished hs hrunning h

theorem stepped (hs : Kept s) (h : s.step e = some s') :
    Kept s' ∧ (s.InLine → (s'.InLine ↔ InStep s e)) := by
  unfold State.step at h
  split at h
  · next hguard =>
      by_cases hrunning : s.running = true
      · obtain ⟨hkept, hplace⟩ := performed hs hrunning h
        exact ⟨hkept, fun hline => hplace (hline hrunning)⟩
      · cases e with
        | launch =>
            obtain rfl := Option.some.inj h
            exact ⟨kept_launch, fun _ => iff_of_true (fun _ => inPlace_launch) trivial⟩
        | _ => simp [hrunning, Event.isLaunch] at hguard
  · cases h

end Steps

/-! ## Runs -/

/-- **The interests are never asked for.** The screens to log in and to sign up are presented over
the tab bar and stand in no navigation controller, so the last screen of the sign-up is never
pushed, and its request is never sent. -/
theorem interests_neverAsked (s : State) (es : List Event) :
    machine.Always State.NeverAsked s.launch es := by
  refine machine.always_of_meets (G := fun _ _ => True) (I := Kept) ?_ ?_ kept_launch
    (machine.meets_of_forall (fun _ _ => trivial) s.launch)
  · intro s e s' hs _ h
    exact (stepped hs h).1
  · intro s hs
    exact ⟨hs.kinds, fun entry hentry => (hs.requests entry hentry).1⟩

/-- **The root follows the user.** From a launch on, the window shows a user the tab bar on its own
and nobody `AuthVC`, or is about to, exactly as long as every step is in step: a sign-up that
creates an account never is, unless a login leads on. -/
theorem root_followsUser (s : State) (es : List Event) :
    machine.Always State.InLine s.launch es ↔ machine.Meets InStep s.launch es := by
  refine machine.always_iff_meets (I := Kept) ?_ ?_ kept_launch fun _ => inPlace_launch
  · intro s e s' hs _ h
    exact (stepped hs h).1
  · intro s e s' hs hline h
    exact (stepped hs h).2 hline

-- A guest signs up, the account is created, and `AuthVC` stays.
example : ¬ machine.Meets InStep (State.launch { app := {}, root := .authVC })
    [.selectProfile, .signInButtonPressed, .signUpButtonPressed,
      .nextButtonPressed ⟨"Ada", "Byron", "ada@news.org", "flash1!A"⟩ [],
      .deliver 0 { created := .ok ⟨"u", none⟩ } .window] := by
  decide

end NewsFlash.Screens.Session
