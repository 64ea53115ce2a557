import NewsFlash.Accounts.Validation
import NewsFlash.Library.InFlight
import NewsFlash.Library.Machine

/-!
# Buttons that wait

Four screens start an operation with a `TransitionButton`. It takes no more taps and hides its
title while the operation goes on, and gets both back some time after its animation was stopped.
`Answered` says which answers stop it.
-/

namespace NewsFlash.Screens.Buttons

open NewsFlash.Library NewsFlash.Models NewsFlash.Models.Authentication NewsFlash.Accounts

/-! ## The button -/

inductive StopAnimationStyle where
  | normal | expand | shake
deriving DecidableEq, Repr

/-- The title and the image are those of the normal state. -/
structure TransitionButton where
  title : Option String := none
  image : Option String := none
  cachedTitle : Option String := none
  cachedImage : Option String := none
  isUserInteractionEnabled : Bool := true
deriving DecidableEq, Repr

namespace TransitionButton

def startAnimation (b : TransitionButton) : TransitionButton where
  isUserInteractionEnabled := false
  cachedTitle := b.title
  cachedImage := b.image
  title := some ""
  image := none

def setOriginalState (b : TransitionButton) : TransitionButton :=
  { b with
    title := b.cachedTitle
    image := b.cachedImage
    isUserInteractionEnabled := true }

end TransitionButton

/-- What a stopped animation leaves to the main queue: the delayed return to the original state,
or the expansion that comes before it. -/
inductive Animation where
  | revert | expand
deriving DecidableEq, Repr

def StopAnimationStyle.animation : StopAnimationStyle → Animation
  | normal | shake => .revert
  | expand => .expand

/-! ## The screens -/

inductive Screen where
  | login | signUpBasics | signUpInterests | profile
deriving DecidableEq, Repr

/-- How the completion of the operation stops the animation; it is given a message if the
operation has failed. -/
def Screen.style : Screen → Option String → StopAnimationStyle
  | login, some _ => .normal
  | login, none => .expand
  | signUpBasics, some _ => .shake
  | signUpBasics, none => .normal
  | signUpInterests, some _ => .shake
  | signUpInterests, none => .expand
  | profile, some _ => .normal
  | profile, none => .expand

/-- What the screen holds when its button is pressed. -/
structure Input where
  form : Validation.Form := ⟨"", "", "", ""⟩
  country : Country := []
  interests : List String := []

/-- The alert asks whether to sign out. -/
structure State where
  app : App := {}
  button : TransitionButton
  inFlight : List AuthRequest := []
  asks : Bool := false
  animations : List Animation := []

/-- `choose` answers the alert: it is cancelled, or the user is signed out, which may fail. -/
inductive Action where
  | press (input : Input)
  | choose (signOut : Option Bool)
  | deliver (i : Nat) (service : Service)
  | finish

namespace State

def stopAnimation (style : StopAnimationStyle) (s : State) : State :=
  { s with animations := s.animations ++ [style.animation] }

def react (screen : Screen) (s : State) (code : Callback App AuthRequest (Option String) Unit) :
    Option State :=
  match code.exec s.app with
  | (none, _) => none
  | (some (), t) => some { s with
      app := t.store
      inFlight := s.inFlight ++ t.issued
      animations := s.animations ++ t.completed.map fun message => (screen.style message).animation }

def submit (screen : Screen) (s : State) : Except String AuthRequest → Option State
  | .error _ => some (s.stopAnimation .shake)
  | .ok request => s.react screen (Callback.send request)

def pressed (screen : Screen) (s : State) (input : Input) : Option State :=
  match screen with
  | .login => s.submit screen (Validation.LoginViewController.loginButtonPressed input.form)
  | .signUpBasics => s.submit screen
      (Validation.SignUpBasicsViewController.nextButtonPressed input.form input.country)
  | .signUpInterests => s.react screen (Authentication.signUpInterests input.interests)
  | .profile => some { s with asks := true }

def chosen (screen : Screen) (s : State) : Option Bool → Option State
  | none => some (s.stopAnimation .normal)
  | some ok => s.react screen (Authentication.signOut
      (fun isSignedOut => Callback.complete (if isSignedOut then none else some "Could not sign out!"))
      ok)

def step (screen : Screen) (s : State) : Action → Option State
  | .press input =>
      if s.button.isUserInteractionEnabled then
        { s with button := s.button.startAnimation }.pressed screen input
      else none
  | .choose signOut => if s.asks then { s with asks := false }.chosen screen signOut else none
  | .deliver i service => (pick s.inFlight i).bind fun (request, inFlight) =>
      let currentUser := service.currentUser request s.app.currentUser
      { s with app := { s.app with currentUser }, inFlight }.react screen
        (service.answer Callback.complete request)
  | .finish => match s.animations with
      | [] => none
      | .revert :: animations =>
          some { s with button := s.button.setOriginalState, animations }
      | .expand :: animations => some { s with animations := animations ++ [.revert] }

def underWay (s : State) : Nat := s.inFlight.length + s.asks.toNat + s.animations.length

end State

def machine (screen : Screen) : Machine State Action where
  step := State.step screen

/-! ## A button that comes back -/

/-- The button waits for one thing at most, and takes taps, under its own title and image, exactly
while it waits for nothing. -/
structure Responsive (original : TransitionButton) (s : State) : Prop where
  single : s.underWay ≤ 1
  enabled : s.button.isUserInteractionEnabled = true ↔ s.underWay = 0
  shown : s.button.isUserInteractionEnabled = true →
    s.button.title = original.title ∧ s.button.image = original.image

/-- All answers lead to a completion or to another request, but for the missing document of a user
who logs in. -/
def leadsOn (service : Service) : AuthRequest → Bool
  | .loginDocument .. => service.document.isSome
  | _ => true

def Answered (s : State) : Action → Prop
  | .deliver i service => ∀ picked ∈ pick s.inFlight i, leadsOn service picked.1 = true
  | _ => True

instance (s : State) : (a : Action) → Decidable (Answered s a)
  | .deliver _ _ => inferInstanceAs (Decidable (∀ _ ∈ _, _ = _))
  | .press _ | .choose _ | .finish => inferInstanceAs (Decidable True)

/-- A request of the four screens; a launch refreshes the profile without a button. -/
def IsForm : AuthRequest → Prop
  | .userData _ => False
  | _ => True

/-- A button that takes no taps remembers its title and its image. -/
structure Waits (original : TransitionButton) (s : State) : Prop where
  cached : s.button.isUserInteractionEnabled = false →
    s.button.cachedTitle = original.title ∧ s.button.cachedImage = original.image
  forms : ∀ request ∈ s.inFlight, IsForm request

/-! ## What the code does -/

section Code

variable {service : Service} {app : App} {t : Trace App AuthRequest (Option String)}

/-- The code of a screen has called its completion, or sent one request. -/
def Proceeds (t : Trace App AuthRequest (Option String)) : Prop :=
  t.issued.length + t.completed.length = 1 ∧ ∀ request ∈ t.issued, IsForm request

theorem proceeds_completed (message : Option String) : Proceeds ⟨app, [], [message]⟩ :=
  ⟨rfl, fun _ hrequest => absurd hrequest List.not_mem_nil⟩

theorem proceeds_sent {request : AuthRequest} (h : IsForm request) :
    Proceeds ⟨app, [request], []⟩ := by
  refine ⟨rfl, fun request' hrequest' => ?_⟩
  obtain rfl := List.mem_singleton.mp hrequest'
  exact h

theorem signUpInterests_proceeds {interests : List String}
    (h : (signUpInterests interests : Callback App AuthRequest (Option String) Unit).exec app =
      (some (), t)) : Proceeds t := by
  cases huser : app.currentUser with
  | none => simp [signUpInterests, App.forcedCurrentUser_apply, huser] at h
  | some user =>
      simp [signUpInterests, App.forcedCurrentUser_apply, huser] at h
      obtain rfl := h
      exact proceeds_sent trivial

theorem signOut_proceeds {ok : Bool} (h : (signOut (fun isSignedOut =>
      Callback.complete (if isSignedOut then none else some "Could not sign out!")) ok :
        Callback App AuthRequest (Option String) Unit).exec app = (some (), t)) : Proceeds t := by
  rw [Callback.exec_apply, signOut_apply, Callback.complete_apply] at h
  obtain rfl := (Prod.mk.inj h).2
  cases ok <;> exact proceeds_completed _

theorem loginDocument_proceeds {email : String} {document : UserDocument}
    (h : (login.onDocument Callback.complete email (some document)).exec app = (some (), t)) :
    Proceeds t := by
  cases hprofile : document.profile with
  | none =>
      obtain ⟨_, htrap⟩ := login.onDocument_incomplete Callback.complete email hprofile
        ⟨app, [], []⟩
      rw [Callback.exec_apply, htrap] at h
      cases h
  | some profile =>
      rw [Callback.exec_apply, login.onDocument_complete _ email hprofile,
        Callback.complete_apply] at h
      obtain rfl := (Prod.mk.inj h).2
      exact proceeds_completed _

theorem answer_spec {request : AuthRequest} (hform : IsForm request)
    (h : (service.answer Callback.complete request).exec app = (some (), t)) :
    if leadsOn service request then Proceeds t else t = ⟨app, [], []⟩ := by
  cases request with
  | signIn email password =>
      cases hsigned : service.signedIn with
      | error message =>
          simp [Service.answer, login.onSignIn, hsigned] at h
          obtain rfl := h
          exact proceeds_completed _
      | ok user =>
          simp [Service.answer, login.onSignIn, hsigned] at h
          obtain rfl := h
          exact proceeds_sent trivial
  | loginDocument uid email =>
      cases hdocument : service.document with
      | none =>
          simp [Service.answer, login.onDocument, hdocument] at h
          simp [leadsOn, hdocument, ← h]
      | some document =>
          simp only [Service.answer, hdocument] at h
          simp only [leadsOn, hdocument, Option.isSome_some, if_true]
          exact loginDocument_proceeds h
  | userData uid => exact absurd hform id
  | createUser firstName lastName email password country =>
      cases hcreated : service.created with
      | error message =>
          simp [Service.answer, signUpBasics.onCreated, hcreated] at h
          obtain rfl := h
          exact proceeds_completed _
      | ok user =>
          simp [Service.answer, signUpBasics.onCreated, hcreated] at h
          obtain rfl := h
          exact proceeds_sent trivial
  | setBasics uid firstName lastName email country =>
      cases herror : service.error <;>
        simp [Service.answer, signUpBasics.onSaved, App.store_unobserved, herror] at h <;>
          obtain rfl := h <;> exact proceeds_completed _
  | mergeInterests uid interests =>
      cases herror : service.error <;>
        simp [Service.answer, signUpInterests.onSaved, herror] at h <;>
          obtain rfl := h <;> exact proceeds_completed _

end Code

/-! ## What one step does -/

section Steps

variable {original : TransitionButton} {screen : Screen} {s s' : State}

/-- The animation runs and nothing is under way: right after a press, or when the last thing that
the button waited for has happened. -/
structure Running (original : TransitionButton) (s : State) : Prop extends Waits original s where
  disabled : s.button.isUserInteractionEnabled = false
  nothing : s.underWay = 0

theorem responsive_of_running (hs : Running original s) (hbutton : s'.button = s.button)
    (hunderWay : s'.underWay = 1) : Responsive original s' := by
  have hdisabled : ¬ s'.button.isUserInteractionEnabled = true := by
    rw [hbutton, hs.disabled]
    exact Bool.false_ne_true
  exact ⟨Nat.le_of_eq hunderWay, iff_of_false hdisabled (by omega),
    fun henabled => absurd henabled hdisabled⟩

theorem stopAnimation_keeps (hs : Running original s) (style : StopAnimationStyle) :
    Responsive original (s.stopAnimation style) ∧ Waits original (s.stopAnimation style) := by
  refine ⟨responsive_of_running hs rfl ?_, hs.cached, hs.forms⟩
  have hnothing := hs.nothing
  simp only [State.underWay, State.stopAnimation, List.length_append, List.length_singleton]
    at hnothing ⊢
  omega

theorem react_eq {code : Callback App AuthRequest (Option String) Unit}
    (h : s.react screen code = some s') :
    ∃ t, code.exec s.app = (some (), t) ∧ s' = { s with
      app := t.store
      inFlight := s.inFlight ++ t.issued
      animations := s.animations ++
        t.completed.map fun message => (screen.style message).animation } := by
  unfold State.react at h
  split at h
  · cases h
  · next t hexec => exact ⟨t, hexec, (Option.some.inj h).symm⟩

theorem react_keeps {code : Callback App AuthRequest (Option String) Unit}
    (hs : Running original s) (hcode : ∀ t, code.exec s.app = (some (), t) → Proceeds t)
    (h : s.react screen code = some s') : Responsive original s' ∧ Waits original s' := by
  obtain ⟨t, hexec, rfl⟩ := react_eq h
  obtain ⟨hlength, hissued⟩ := hcode t hexec
  refine ⟨responsive_of_running hs rfl ?_, hs.cached, fun request hrequest => ?_⟩
  · have hnothing := hs.nothing
    simp only [State.underWay, List.length_append, List.length_map] at hnothing ⊢
    omega
  · rcases List.mem_append.mp hrequest with hrequest | hrequest
    · exact hs.forms request hrequest
    · exact hissued request hrequest

theorem send_proceeds {request : AuthRequest} (hrequest : IsForm request) {app : App}
    (t : Trace App AuthRequest (Option String))
    (h : (Callback.send request : Callback App AuthRequest (Option String) Unit).exec app =
      (some (), t)) : Proceeds t := by
  obtain rfl := (Prod.mk.inj h).2
  exact proceeds_sent hrequest

theorem submit_keeps (hs : Running original s) {result : Except String AuthRequest}
    (hresult : ∀ request, result = .ok request → IsForm request)
    (h : s.submit screen result = some s') : Responsive original s' ∧ Waits original s' := by
  cases result with
  | error message =>
      obtain rfl := Option.some.inj h
      exact stopAnimation_keeps hs .shake
  | ok request => exact react_keeps hs (send_proceeds (hresult request rfl)) h

theorem pressed_keeps {input : Input} (hs : Running original s)
    (h : s.pressed screen input = some s') : Responsive original s' ∧ Waits original s' := by
  cases screen with
  | login =>
      refine submit_keeps hs (fun request hrequest => ?_) h
      obtain ⟨-, rfl⟩ := Validation.LoginViewController.loginButtonPressed_ok.mp hrequest
      trivial
  | signUpBasics =>
      refine submit_keeps hs (fun request hrequest => ?_) h
      obtain ⟨-, rfl⟩ := Validation.SignUpBasicsViewController.nextButtonPressed_ok.mp hrequest
      trivial
  | signUpInterests => exact react_keeps hs (fun _ hexec => signUpInterests_proceeds hexec) h
  | profile =>
      obtain rfl := Option.some.inj h
      refine ⟨responsive_of_running hs rfl ?_, hs.cached, hs.forms⟩
      have hnothing := hs.nothing
      simp only [State.underWay, Bool.toNat_true] at hnothing ⊢
      omega

theorem chosen_keeps {choice : Option Bool} (hs : Running original s)
    (h : s.chosen screen choice = some s') : Responsive original s' ∧ Waits original s' := by
  cases choice with
  | none =>
      obtain rfl := Option.some.inj h
      exact stopAnimation_keeps hs .normal
  | some ok => exact react_keeps hs (fun _ hexec => signOut_proceeds hexec) h

/-- While something is under way the button takes no taps. -/
theorem Responsive.disabled (hs : Responsive original s) (h : s.underWay ≠ 0) :
    s.button.isUserInteractionEnabled = false := by
  rw [← Bool.not_eq_true]
  intro henabled
  exact h (hs.enabled.mp henabled)

theorem deliver_keeps {i : Nat} {service : Service} (hs : Responsive original s)
    (hwaits : Waits original s)
    (h : (machine screen).step s (.deliver i service) = some s') :
    (Responsive original s' ↔ Answered s (.deliver i service)) ∧ Waits original s' := by
  obtain ⟨⟨request, inFlight⟩, hpick, hreact⟩ := Option.bind_eq_some_iff.mp h
  have hlength : s.inFlight.length = inFlight.length + 1 := (pick_perm hpick).length_eq
  have hunderWay := hs.single
  have hrunning : Running original { s with
      app := { s.app with currentUser := service.currentUser request s.app.currentUser }
      inFlight } := by
    refine ⟨⟨hwaits.cached, fun request' hrequest' =>
      hwaits.forms request' (mem_of_mem_pick hpick hrequest')⟩, hs.disabled ?_, ?_⟩
    · unfold State.underWay
      omega
    · simp only [State.underWay] at hunderWay ⊢
      omega
  have hform : IsForm request := hwaits.forms request (mem_of_pick hpick)
  simp only [Answered, hpick, Option.mem_some_iff, forall_eq']
  cases hleads : leadsOn service request with
  | true =>
      obtain ⟨hresponsive, hwaits'⟩ := react_keeps hrunning (fun t hexec => by
        have hspec := answer_spec hform hexec
        rwa [hleads, if_pos rfl] at hspec) hreact
      exact ⟨iff_of_true hresponsive rfl, hwaits'⟩
  | false =>
      -- the completion is never called
      obtain ⟨t, hexec, rfl⟩ := react_eq hreact
      have hspec := answer_spec hform hexec
      rw [hleads, if_neg Bool.false_ne_true] at hspec
      subst hspec
      refine ⟨iff_of_false (fun hresponsive => ?_) Bool.false_ne_true, hrunning.cached, ?_⟩
      · have henabled := hresponsive.enabled.mpr (by
          have hnothing := hrunning.nothing
          simp only [State.underWay, List.append_nil, List.map_nil] at hnothing ⊢
          exact hnothing)
        rw [show s.button.isUserInteractionEnabled = false from hrunning.disabled] at henabled
        cases henabled
      · simp only [List.append_nil]
        exact hrunning.forms

theorem finish_keeps (hs : Responsive original s) (hwaits : Waits original s)
    (h : (machine screen).step s .finish = some s') :
    Responsive original s' ∧ Waits original s' := by
  change (match s.animations with | [] => none | .revert :: _ => _ | .expand :: _ => _) = some s' at h
  have hsingle := hs.single
  unfold State.underWay at hsingle
  split at h
  · cases h
  · next animations hanimations =>
      obtain rfl := Option.some.inj h
      rw [hanimations, List.length_cons] at hsingle
      have hdisabled := hs.disabled (by
        unfold State.underWay
        rw [hanimations, List.length_cons]
        omega)
      refine ⟨⟨?_, iff_of_true rfl ?_, fun _ => hwaits.cached hdisabled⟩, ?_, hwaits.forms⟩
      · simp only [State.underWay]
        omega
      · simp only [State.underWay]
        omega
      · intro henabled
        cases henabled
  · next animations hanimations =>
      obtain rfl := Option.some.inj h
      rw [hanimations, List.length_cons] at hsingle
      have hdisabled := hs.disabled (by
        unfold State.underWay
        rw [hanimations, List.length_cons]
        omega)
      have hunderWay : s.inFlight.length + s.asks.toNat + (animations ++ [Animation.revert]).length = 1 := by
        rw [List.length_append, List.length_singleton]
        omega
      refine ⟨responsive_of_running (s := { s with animations := [], inFlight := [], asks := false })
        ⟨⟨hwaits.cached, fun _ h => absurd h List.not_mem_nil⟩, hdisabled, rfl⟩ rfl hunderWay,
        hwaits.cached, hwaits.forms⟩

theorem responsive_step {a : Action} (hs : Responsive original s) (hwaits : Waits original s)
    (h : (machine screen).step s a = some s') :
    (Responsive original s' ↔ Answered s a) ∧ Waits original s' := by
  cases a with
  | press input =>
      obtain ⟨henabled, h⟩ := Option.ite_none_right_eq_some.mp h
      obtain ⟨htitle, himage⟩ := hs.shown henabled
      have hrunning : Running original { s with button := s.button.startAnimation } :=
        ⟨⟨fun _ => ⟨htitle, himage⟩, hwaits.forms⟩, rfl, hs.enabled.mp henabled⟩
      obtain ⟨hresponsive, hwaits'⟩ := pressed_keeps hrunning h
      exact ⟨iff_of_true hresponsive trivial, hwaits'⟩
  | choose choice =>
      obtain ⟨hasks, h⟩ := Option.ite_none_right_eq_some.mp h
      have hsingle := hs.single
      unfold State.underWay at hsingle
      rw [hasks, Bool.toNat_true] at hsingle
      have hdisabled := hs.disabled (by
        unfold State.underWay
        rw [hasks, Bool.toNat_true]
        omega)
      have hrunning : Running original { s with asks := false } := by
        refine ⟨⟨hwaits.cached, hwaits.forms⟩, hdisabled, ?_⟩
        simp only [State.underWay, Bool.toNat_false]
        omega
      obtain ⟨hresponsive, hwaits'⟩ := chosen_keeps hrunning h
      exact ⟨iff_of_true hresponsive trivial, hwaits'⟩
  | deliver i service => exact deliver_keeps hs hwaits h
  | finish =>
      obtain ⟨hresponsive, hwaits'⟩ := finish_keeps hs hwaits h
      exact ⟨iff_of_true hresponsive trivial, hwaits'⟩

end Steps

/-- **Buttons.** In every run of one of the four screens from its start, over presses with any
fields, answers of the services, choices in the alert and ends of animations in any order: in
every state the button waits for one thing at most and takes taps, under its own title, exactly
while it waits for nothing, exactly as long as the document of every user who logs in is there
when it is asked for. -/
theorem buttons_responsive (screen : Screen) (app : App) (title image : Option String)
    (as : List Action) :
    (machine screen).Always (Responsive { title, image }) { app, button := { title, image } } as ↔
      (machine screen).Meets Answered { app, button := { title, image } } as := by
  refine (machine screen).always_iff_meets (I := Waits { title, image })
    (fun hwaits hs h => (responsive_step hs hwaits h).2)
    (fun hwaits hs h => (responsive_step hs hwaits h).1) ⟨?_, ?_⟩ ⟨Nat.zero_le 1, ?_, ?_⟩
  · intro hdisabled
    cases hdisabled
  · intro request hrequest
    cases hrequest
  · exact iff_of_true rfl rfl
  · intro _
    exact ⟨rfl, rfl⟩

end NewsFlash.Screens.Buttons
