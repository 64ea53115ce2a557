import NewsFlash.Accounts.SignUp
import NewsFlash.Accounts.Validation
import NewsFlash.Library.Frames
import NewsFlash.Screens.Lifetime

/-!
# The window and its screens

The root of the window is the tab bar, on its own or in the navigation controller `AuthVC`. A
guest signs in from the profile tab: the screens to log in and to sign up are presented over the
tab bar, and they, the sign-out and a launch replace the root. Answers and the completions of
animations come in any order, to screens that may be gone.
-/

namespace NewsFlash.Screens.Session

open NewsFlash.Library NewsFlash.Models NewsFlash.Models.Authentication NewsFlash.Accounts
open NewsFlash.Screens.Lifetime (MainPart animated)

/-! ## The window -/

inductive Root where
  | authVC | loggedVC
deriving DecidableEq, Repr

inductive Kind where
  | login | signUpBasics | signUpInterests
deriving DecidableEq, Repr

structure Screen where
  id : Nat
  kind : Kind
deriving DecidableEq, Repr

/-- The profile tab, once it has been selected: it offers to sign in or to sign out, whichever
the stored first name told it when it was loaded. -/
structure Profile where
  id : Nat
  offersSignIn : Bool
deriving DecidableEq, Repr

/-- The screen that a completion captures as unowned. -/
inductive Owner where
  | profile (id : Nat)
  | screen (id : Nat)
deriving DecidableEq, Repr

/-- Where UIKit has the screen of a completion that runs: in the window, in memory alone, or
nowhere. -/
inductive Presence where
  | window | memory | gone
deriving DecidableEq, Repr

/-- `frames` are presented over the root; `busy` are the screens whose buttons are waiting. A
request comes with the screen whose completion it calls; that of a launch calls none. -/
structure State where
  app : App
  running : Bool := true
  root : Root
  profile : Option Profile := none
  frames : List (Frame Screen) := []
  busy : List Owner := []
  next : Nat := 0
  inFlight : List (AuthRequest × Option Owner) := []
  animations : List (MainPart × Owner) := []

/-- `nextButtonPressed` and `signUpLoginButtonPressed` are on the first screen of the sign-up.
`signOut` is the choice of the alert that the button of the profile shows. The pills can be tapped
until the button has expanded. -/
inductive Event where
  | launch
  | selectProfile
  | signInButtonPressed
  | signUpButtonPressed
  | loginButtonPressed (form : Validation.Form)
  | nextButtonPressed (form : Validation.Form) (country : Country)
  | signUpLoginButtonPressed
  | interestsNextButtonPressed (interests : List String)
  | dismiss
  | signOut (ok : Bool)
  | deliver (i : Nat) (service : Service) (presence : Presence)
  | finish (i : Nat) (presence : Presence) (selectedInterests : List String)

def Event.isLaunch : Event → Bool
  | launch => true
  | _ => false

/-- The completion of an animation captures its screen as unowned. The button of the profile has
none after a sign-out that failed. -/
def captures : MainPart → Owner → Bool
  | .resetCornerRadius, .profile _ => false
  | _, _ => true

def ids (frames : List (Frame Screen)) : List Nat := (Frame.controllers frames).map Screen.id

namespace State

def isAttached (s : State) : Owner → Bool
  | .profile id => s.profile.any (·.id = id)
  | .screen id => (ids s.frames).contains id

/-- UIKit has no other screens in the window than those that are shown. All sheets are there, but
the profile is in memory alone while another tab is selected. -/
def allows (s : State) : Owner → Presence → Bool
  | owner, .window => s.isAttached owner
  | .profile _, .memory => true
  | owner, _ => !s.isAttached owner

/-- Run code of a screen, or the closure of an answer; the process ends where it traps. The
completion that it calls traps without its screen, and stops the animation of its button. -/
def react (s : State) (owner : Option Owner) (presence : Presence)
    (part : Option String → MainPart) (code : Callback App AuthRequest (Option String) Unit) :
    State :=
  match code.exec s.app with
  | (none, t) => { s with app := t.store, running := false }
  | (some (), t) =>
      if t.completed ≠ [] ∧ presence = .gone then { s with app := t.store, running := false }
      else { s with
        app := t.store
        inFlight := s.inFlight ++ t.issued.map fun request => (request, owner)
        animations := s.animations ++ owner.toList.flatMap fun owner =>
          t.completed.map fun message => (part message, owner) }

def launch (s : State) : State :=
  let app : App := { currentUser := s.app.currentUser, defaults := s.app.defaults }
  let root : Root := if app.currentUser.isSome then .loggedVC else .authVC
  ({ app, root, next := s.next } : State).react none .memory (fun _ => .updateView)
    SignUp.SceneDelegate.willConnectTo

def pressed (s : State) (kind : Kind) (press : State → Owner → State) : Option State :=
  (Frame.front s.frames).bind fun screen =>
    if screen.kind = kind ∧ .screen screen.id ∉ s.busy then
      some (press { s with busy := .screen screen.id :: s.busy } (.screen screen.id))
    else none

def submit (s : State) (owner : Owner) : Except String AuthRequest → State
  | .error _ => { s with animations := s.animations ++ [(.resetCornerRadius, owner)] }
  | .ok request => { s with inFlight := s.inFlight ++ [(request, some owner)] }

def replaceRoot (s : State) (root : Root) (presence : Presence) : State :=
  if presence = .window then { s with root, profile := none, frames := [] } else s

def withDefaults (s : State) (f : Defaults → Defaults) : State :=
  { s with app := { s.app with defaults := f s.app.defaults } }

def complete (s : State) (presence : Presence) (selectedInterests : List String) :
    MainPart → Owner → State
  | .showLoggedVC, _ => s.replaceRoot .loggedVC presence
  | .storeInterests, _ =>
      (s.withDefaults (UserRepository.store .interests (.strings selectedInterests))).replaceRoot
        .loggedVC presence
  | .showAuthVC, _ =>
      (s.withDefaults UserRepository.removeUserInfo).replaceRoot .authVC presence
  | .pushSignUpInterests, .screen id => { s with
      frames := Frame.push ⟨id, .signUpBasics⟩ ⟨s.next, .signUpInterests⟩ s.frames
      next := s.next + 1 }
  | _, _ => s

def perform (s : State) : Event → Option State
  | .launch => some s.launch
  | .selectProfile =>
      if s.frames = [] ∧ s.profile = none then some { s with
        profile := some ⟨s.next, (UserRepository.fetch .firstname s.app.defaults).isNone⟩
        next := s.next + 1 }
      else none
  | .signInButtonPressed =>
      if s.frames = [] ∧ s.profile.any Profile.offersSignIn then some { s with
        frames := Frame.present ⟨s.next, .login⟩ s.frames
        next := s.next + 1 }
      else none
  | .signUpButtonPressed => (Frame.front s.frames).bind fun screen =>
      if screen.kind = .login then some { s with
        frames := Frame.segue screen ⟨s.next, .signUpBasics⟩ s.frames
        next := s.next + 1 }
      else none
  | .loginButtonPressed form => s.pressed .login fun s owner =>
      s.submit owner (Validation.LoginViewController.loginButtonPressed form)
  | .nextButtonPressed form country => s.pressed .signUpBasics fun s owner =>
      s.submit owner (Validation.SignUpBasicsViewController.nextButtonPressed form country)
  | .signUpLoginButtonPressed => (Frame.front s.frames).bind fun screen =>
      if screen.kind = .signUpBasics then some { s with frames := Frame.pop screen s.frames }
      else none
  | .interestsNextButtonPressed interests => s.pressed .signUpInterests fun s owner =>
      s.react (some owner) .window (fun _ => .updateView) (Authentication.signUpInterests interests)
  | .dismiss => if s.frames = [] then none else some { s with frames := s.frames.tail }
  | .signOut ok => s.profile.bind fun profile =>
      if s.frames = [] ∧ profile.offersSignIn = false ∧ .profile profile.id ∉ s.busy then
        some ({ s with busy := .profile profile.id :: s.busy }.react (some (.profile profile.id))
          .window (fun message => if message = none then .showAuthVC else .resetCornerRadius)
          (Authentication.signOut (fun isSignedOut =>
            Callback.complete (if isSignedOut then none else some "Could not sign out!")) ok))
      else none
  | .deliver i service presence =>
      (pick s.inFlight i).bind fun ((request, owner), inFlight) =>
        if owner.all (s.allows · presence) then
          let currentUser := service.currentUser request s.app.currentUser
          some ({ s with app := { s.app with currentUser }, inFlight }.react owner presence
            (animated request) (service.answer Callback.complete request))
        else none
  | .finish i presence selectedInterests => (pick s.animations i).bind fun ((part, owner), animations) =>
      if s.allows owner presence then
        if presence = .gone ∧ captures part owner = true then
          some { s with animations, running := false }
        else some ({ s with animations, busy := s.busy.filter (· ≠ owner) }.complete
          presence selectedInterests part owner)
      else none

/-- Only a launch follows the end of a process. -/
def step (s : State) (e : Event) : Option State :=
  if s.running || e.isLaunch then s.perform e else none

end State

def machine : Machine State Event where
  step := State.step

/-! ## What the code answers -/

def isLoginDocument : AuthRequest → Bool
  | .loginDocument .. => true
  | _ => false

def isMerge : AuthRequest → Bool
  | .mergeInterests .. => true
  | _ => false

/-- The requests that an answer leads to, and the messages that it completes with. -/
def issues (service : Service) : AuthRequest → List AuthRequest
  | .signIn email _ => service.signedIn.toOption.toList.map fun user =>
      .loginDocument user.uid email
  | .createUser firstName lastName email _ country =>
      service.created.toOption.toList.map fun user =>
        .setBasics user.uid firstName lastName email country
  | _ => []

def parts (service : Service) : AuthRequest → List MainPart
  | .signIn .. => if service.signedIn.isOk then [] else [.resetCornerRadius]
  | .loginDocument .. => if service.document.isSome then [.showLoggedVC] else []
  | .userData _ => []
  | .createUser .. => if service.created.isOk then [] else [.resetCornerRadius]
  | .setBasics .. => if service.error then [.resetCornerRadius] else [.pushSignUpInterests]
  | .mergeInterests .. => if service.error then [.resetCornerRadius] else [.storeInterests]

/-- The answers after which a login leads on. -/
def leadsOn (service : Service) : AuthRequest → Bool
  | .signIn .. => service.signedIn.isOk
  | .loginDocument .. => service.document.isSome
  | _ => false

section Code

variable {service : Service} {request : AuthRequest} {app : App}
  {t : Trace App AuthRequest (Option String)}

theorem loginDocument_trace {email : String} {document : Option UserDocument}
    (h : (login.onDocument Callback.complete email document).exec app = (some (), t)) :
    t.store.currentUser = app.currentUser ∧ t.issued = [] ∧
      t.completed = if document.isSome then [none] else [] := by
  cases document with
  | none =>
      obtain rfl := (Prod.mk.inj h).2
      exact ⟨rfl, rfl, rfl⟩
  | some document =>
      rw [Callback.exec_apply] at h
      cases hprofile : document.profile with
      | none =>
          obtain ⟨_, htrap⟩ := login.onDocument_incomplete Callback.complete email hprofile
            ⟨app, [], []⟩
          rw [htrap] at h
          cases h
      | some profile =>
          rw [login.onDocument_complete _ email hprofile, Callback.complete_apply] at h
          obtain rfl := (Prod.mk.inj h).2
          exact ⟨rfl, rfl, rfl⟩

theorem userData_trace {document : Option UserDocument}
    (h : (updateUserData.onDocument document).exec app = (some (), t)) :
    t.store.currentUser = app.currentUser ∧ t.issued = [] ∧ t.completed = [] := by
  cases document with
  | none =>
      obtain rfl := (Prod.mk.inj h).2
      exact ⟨rfl, rfl, rfl⟩
  | some document =>
      rw [Callback.exec_apply] at h
      cases hrefresh : document.refresh app.currentUser with
      | none =>
          obtain ⟨_, htrap⟩ := updateUserData.onDocument_incomplete
            (⟨app, [], []⟩ : Trace App AuthRequest (Option String)) hrefresh
          rw [htrap] at h
          cases h
      | some refresh =>
          rw [updateUserData.onDocument_complete
            (⟨app, [], []⟩ : Trace App AuthRequest (Option String)) hrefresh] at h
          obtain rfl := (Prod.mk.inj h).2
          exact ⟨rfl, rfl, rfl⟩

theorem answer_trace (h : (service.answer Callback.complete request).exec app = (some (), t)) :
    t.store.currentUser = app.currentUser ∧ t.issued = issues service request ∧
      t.completed.map (animated request) = parts service request := by
  cases request with
  | signIn email password =>
      change (login.onSignIn Callback.complete email service.signedIn).exec app = _ at h
      cases hsigned : service.signedIn with
      | error message =>
          rw [hsigned] at h
          obtain rfl := (Prod.mk.inj h).2
          simp [issues, parts, hsigned, Except.isOk, Except.toBool, animated, Except.toOption]
      | ok user =>
          rw [hsigned] at h
          obtain rfl := (Prod.mk.inj h).2
          simp [issues, parts, hsigned, Except.isOk, Except.toBool, Except.toOption]
  | loginDocument uid email =>
      obtain ⟨huser, hissued, hcompleted⟩ := loginDocument_trace h
      refine ⟨huser, hissued, ?_⟩
      rw [hcompleted, parts]
      split <;> rfl
  | userData uid =>
      obtain ⟨huser, hissued, hcompleted⟩ := userData_trace h
      refine ⟨huser, hissued, ?_⟩
      rw [hcompleted]
      rfl
  | createUser firstName lastName email password country =>
      change (signUpBasics.onCreated Callback.complete firstName lastName email country
        service.created).exec app = _ at h
      cases hcreated : service.created with
      | error message =>
          rw [hcreated] at h
          obtain rfl := (Prod.mk.inj h).2
          simp [issues, parts, hcreated, Except.isOk, Except.toBool, animated, Except.toOption]
      | ok user =>
          rw [hcreated] at h
          obtain rfl := (Prod.mk.inj h).2
          simp [issues, parts, hcreated, Except.isOk, Except.toBool, Except.toOption]
  | setBasics uid firstName lastName email country =>
      change (signUpBasics.onSaved Callback.complete firstName lastName email country
        service.error).exec app = _ at h
      cases herror : service.error <;> rw [herror] at h <;> obtain rfl := (Prod.mk.inj h).2 <;>
        simp [issues, parts, herror, animated]
  | mergeInterests uid interests =>
      change (signUpInterests.onSaved Callback.complete service.error).exec app = _ at h
      cases herror : service.error <;> rw [herror] at h <;> obtain rfl := (Prod.mk.inj h).2 <;>
        simp [issues, parts, herror, animated]

theorem isMerge_issues {next : AuthRequest} (h : next ∈ issues service request) :
    isMerge next = false := by
  cases request with
  | signIn email password =>
      obtain ⟨_, -, rfl⟩ := List.mem_map.mp h
      rfl
  | createUser firstName lastName email password country =>
      obtain ⟨_, -, rfl⟩ := List.mem_map.mp h
      rfl
  | loginDocument | userData | setBasics | mergeInterests => cases h

theorem leadsOn_iff : leadsOn service request = true ↔
    (∃ next ∈ issues service request, isLoginDocument next = true) ∨
      MainPart.showLoggedVC ∈ parts service request := by
  cases request with
  | signIn email password =>
      cases hsigned : service.signedIn <;>
        simp [leadsOn, issues, parts, hsigned, isLoginDocument, Except.isOk, Except.toBool,
          Except.toOption]
  | loginDocument uid email => cases hdocument : service.document <;> simp [leadsOn, issues, parts,
      hdocument]
  | userData uid => simp [leadsOn, issues, parts]
  | createUser firstName lastName email password country =>
      cases hcreated : service.created <;>
        simp [leadsOn, issues, parts, hcreated, isLoginDocument, Except.isOk, Except.toBool,
          Except.toOption]
  | setBasics | mergeInterests => cases herror : service.error <;> simp [leadsOn, issues, parts,
      herror]

end Code

end NewsFlash.Screens.Session
