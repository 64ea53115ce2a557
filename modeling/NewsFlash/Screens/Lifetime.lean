import NewsFlash.Library.InFlight
import NewsFlash.Library.Machine
import NewsFlash.Models.Authentication

/-!
# Closures and the lifetime of their screens

Requests are never cancelled. A completion that captures its screen as unowned traps when it
runs after the screen has been torn down, while one that captures it strongly keeps the
screen alive. So do the cards of Flash Cards, whose delegate is the screen. The stored profile
notifies the screens that observe it, those of an old hierarchy too: they send requests until
they are torn down. `Drained` says exactly which teardowns leave no completion behind.
-/

namespace NewsFlash.Screens.Lifetime

open NewsFlash.Library NewsFlash.Models NewsFlash.Models.Authentication

/-! ## Screens and closures -/

inductive Kind where
  | forYou | search | category | saved | flashCards | profile
  | login | signUpBasics | signUpInterests
deriving DecidableEq, Repr

/-- A screen that was popped, dismissed or replaced with its root is left; it is torn down
once nothing holds it any more. -/
inductive Life where
  | attached | left | tornDown
deriving DecidableEq, Repr

/-- `cards` tells whether Koloda shows cards of a Flash Cards screen, `selectedInterests` which
pills of a sign-up are selected. -/
structure Screen where
  kind : Kind
  life : Life := .attached
  cards : Bool := false
  selectedInterests : List String := []
deriving DecidableEq, Repr

/-- How a closure captures the screen at an index. The completion of a card captures the screen
as unowned, but the card strongly, whose delegate is the screen. -/
inductive Capture where
  | nothing
  | strong (k : Nat)
  | unowned (k : Nat)
  | card (k : Nat)
deriving DecidableEq, Repr

def Capture.screen : Capture → Option Nat
  | unowned k | card k => some k
  | _ => none

inductive MainPart where
  | updateView
  | resetCornerRadius
  | showLoggedVC
  | pushSignUpInterests
  | storeInterests
  | showAuthVC
deriving DecidableEq, Repr

inductive Job where
  | getAllNews | searchNews | getByCategory | getTopNews
  | getSavedNews | refreshSavedNews
  | saveArticle | unsaveArticle
  | loadImage
  | auth (request : AuthRequest)
  | main (part : MainPart)
deriving DecidableEq, Repr

structure Closure where
  job : Job
  capture : Capture
deriving DecidableEq, Repr

/-- The screen that a completion run by the closure accesses as unowned. `updateUserData` has no
completion. -/
def Closure.accesses (c : Closure) : Option Nat :=
  match c.job with
  | .auth (.userData _) => none
  | _ => c.capture.screen

structure World where
  app : App
  screens : List Screen := []
  pending : List Closure := []
  trapped : Bool := false

namespace Kind

/-- What `viewDidLoad` requests; a category is requested before its screen is pushed. -/
def onLoad : Kind → List Job
  | forYou => [.getAllNews]
  | category => [.getByCategory]
  | saved => [.getSavedNews]
  | flashCards => [.getTopNews]
  | _ => []

/-- What scrolling, refreshing, swiping and the buttons of a screen request. A form that
fails its own checks shakes the button at once. -/
def requests : Kind → Job → Bool
  | forYou, .getAllNews | search, .searchNews | category, .getByCategory
  | saved, .refreshSavedNews | flashCards, .getTopNews => true
  | forYou, .saveArticle | search, .saveArticle | category, .saveArticle
  | flashCards, .saveArticle => true
  | forYou, .unsaveArticle | search, .unsaveArticle | category, .unsaveArticle
  | saved, .unsaveArticle | flashCards, .unsaveArticle => true
  | forYou, .loadImage | search, .loadImage | category, .loadImage | saved, .loadImage
  | flashCards, .loadImage => true
  | login, .auth (.signIn ..) | login, .main .resetCornerRadius => true
  | signUpBasics, .auth (.createUser ..) | signUpBasics, .main .resetCornerRadius => true
  | signUpInterests, .auth (.mergeInterests ..) => true
  | _, _ => false

/-- Images are kept in the cache of `self`. The category screen alone captures itself
strongly when it saves and unsaves. -/
def capture (kind : Kind) (k : Nat) : Job → Capture
  | .loadImage => .strong k
  | .saveArticle | .unsaveArticle => match kind with
      | category => .strong k
      | flashCards => .card k
      | _ => .unowned k
  | _ => .unowned k

end Kind

namespace World

/-- Without the interests or the user that it needs, an operation returns or traps. -/
def sends (w : World) : Job → Bool
  | .getAllNews => ((UserRepository.fetch .interests w.app.defaults).bind Value.asStrings).isSome
  | .getSavedNews | .refreshSavedNews | .saveArticle | .unsaveArticle
  | .auth (.mergeInterests ..) => w.app.currentUser.isSome
  | _ => true

def enqueue (w : World) (closures : List Closure) : World :=
  { w with pending := w.pending ++ closures }

def enter (w : World) (kind : Kind) : World :=
  let screen : Screen := { kind }
  { w with screens := w.screens ++ [screen] }.enqueue
    ((kind.onLoad.filter w.sends).map fun job => ⟨job, kind.capture w.screens.length job⟩)

def TornDown (w : World) (k : Nat) : Prop := ∃ screen ∈ w.screens[k]?, screen.life = .tornDown

instance (w : World) (k : Nat) : Decidable (w.TornDown k) :=
  match h : w.screens[k]? with
  | none => isFalse (by simp [TornDown, h])
  | some screen => decidable_of_iff (screen.life = .tornDown) (by simp [TornDown, h])

/-- `self.view.window?.rootViewController = …` -/
def replaceRoot (w : World) : World :=
  { w with screens := w.screens.map fun screen =>
      if screen.life = .attached then { screen with life := .left } else screen }

/-! ## The observers of the stored profile -/

/-- `observeValue` of the screen at index `k`. A screen observes its keys from
`viewDidLoad` to `deinit`. -/
def observeValue (w : World) (key : Key) (screen : Screen) (k : Nat) : List Closure :=
  if screen.life = .tornDown then []
  else match screen.kind, key with
    | .flashCards, .country =>
        if UserRepository.checkFor .country w.app.defaults then
          [⟨.getTopNews, .unowned k⟩]
        else []
    | .forYou, .interests | .forYou, .resultLanguage =>
        if UserRepository.checkFor .interests w.app.defaults ∧
            UserRepository.checkFor .resultLanguage w.app.defaults ∧ w.sends .getAllNews then
          [⟨.getAllNews, .unowned k⟩]
        else []
    | _, _ => []

def notify (w : World) (key : Key) : World :=
  w.enqueue (w.screens.zipIdx.flatMap fun (screen, k) => w.observeValue key screen k)

def setCurrentUser (w : World) (user : Option User) : World :=
  { w with app := { w.app with currentUser := user } }

def setDefaults (w : World) (f : Defaults → Defaults) : World :=
  { w with app := { w.app with defaults := f w.app.defaults } }

def store (w : World) (entry : Key × Value) : World :=
  (w.setDefaults (UserRepository.store entry.1 entry.2)).notify entry.1

def removeObject (w : World) (key : Key) : World :=
  (w.setDefaults (UserRepository.removeObject key)).notify key

def removeUserInfo (w : World) : World := Key.allCases.foldl removeObject w

end World

def stored (service : Service) (app : App) : AuthRequest → List (Key × Value)
  | .loginDocument _ email => match service.document.bind UserDocument.profile with
      | some profile => profile.entries email
      | none => []
  | .userData _ => match service.document.bind fun document => document.refresh app.currentUser with
      | some refresh => refresh.entries
      | none => []
  | .setBasics _ firstName lastName email country =>
      if service.error then [] else signUpBasics.entries firstName lastName email country
  | _ => []

/-! ## Running the closures -/

def animated (request : AuthRequest) : Option String → MainPart
  | some _ => .resetCornerRadius
  | none => match request with
      | .setBasics .. => .pushSignUpInterests
      | .mergeInterests .. => .storeInterests
      | _ => .showLoggedVC

namespace World

def execAuth (w : World) (service : Service) (request : AuthRequest) :
    Option Unit × Trace App AuthRequest (Option String) :=
  (service.answer Callback.complete request).exec
    (w.setCurrentUser (service.currentUser request w.app.currentUser)).app

/-- The observers hear of every single write of the closure. -/
def answerAuth (w : World) (service : Service) (request : AuthRequest) (capture : Capture) :
    Option World :=
  let v := w.setCurrentUser (service.currentUser request w.app.currentUser)
  match w.execAuth service request with
  | (none, _) => none
  | (some (), t) =>
      let v : World := { (stored service v.app request).foldl store v with app := t.store }
      some (v.enqueue (t.issued.map (fun request => ⟨.auth request, capture⟩) ++
        t.completed.map fun message => ⟨.main (animated request message), capture⟩))

def selectedInterests (w : World) : Capture → List String
  | .unowned k => (w.screens[k]?.map Screen.selectedInterests).getD []
  | _ => []

def runMain (w : World) (capture : Capture) : MainPart → World
  | .updateView | .resetCornerRadius => w
  | .showLoggedVC => w.replaceRoot
  | .pushSignUpInterests => w.enter .signUpInterests
  | .storeInterests =>
      (w.store (.interests, .strings (w.selectedInterests capture))).replaceRoot
  | .showAuthVC => w.removeUserInfo.replaceRoot

/-- Run a closure whose screen is alive, or that does not run its completion. -/
def runJob (w : World) (service : Service) (c : Closure) : Option World :=
  match c.job with
  | .getAllNews | .searchNews | .getByCategory | .getTopNews | .refreshSavedNews =>
      some (w.enqueue [⟨.main .updateView, c.capture⟩])
  | .getSavedNews | .saveArticle | .unsaveArticle | .loadImage => some w
  | .auth request => w.answerAuth service request c.capture
  | .main part => some (w.runMain c.capture part)

/-- Only the closures of logins and sign-ups end without the completion, or go on to the next
request. -/
def completes (w : World) (service : Service) : Job → Bool
  | .auth request => (w.execAuth service request).2.completed ≠ []
  | _ => true

/-- A completion traps whose unowned screen has been torn down. -/
def runClosure (w : World) (service : Service) (c : Closure) : Option World :=
  match c.accesses with
  | some k =>
      if w.TornDown k ∧ w.completes service c.job then some { w with trapped := true }
      else w.runJob service c
  | none => w.runJob service c

end World

/-- What a user does, what the services answer, when Koloda shows its first card or has lost its
last one, and when a screen that was left is torn down. The edit screens store values without a
closure. -/
inductive Event where
  | enter (kind : Kind)
  | request (k : Nat) (job : Job)
  | edit (entry : Key × Value)
  | signOut (k : Nat) (ok : Bool)
  | showCards (k : Nat) (shown : Bool)
  | select (k : Nat) (interests : List String)
  | leave (k : Nat)
  | teardown (k : Nat)
  | deliver (i : Nat) (service : Service)

namespace World

def modifyScreen (w : World) (k : Nat) (f : Screen → Screen) : World :=
  { w with screens := w.screens.modify k f }

def setLife (w : World) (k : Nat) (life : Life) : World :=
  w.modifyScreen k fun screen => { screen with life }

def isAttached (w : World) (k : Nat) (p : Kind → Bool) : Bool :=
  w.screens[k]?.any fun screen => screen.life = .attached ∧ p screen.kind

/-- A closure that captures it, or one of its cards, strongly keeps a screen alive, and so do the
cards that it shows. A repeating timer keeps every profile screen. -/
def isHeld (w : World) (k : Nat) : Bool :=
  w.screens[k]?.any (fun screen => screen.kind = .profile ∨ screen.cards) ||
    w.pending.any fun c => c.capture = .strong k ∨ c.capture = .card k

/-- `Authentication.signOut` calls its completion at once. -/
def signOut (w : World) (k : Nat) (ok : Bool) : World :=
  if ok then
    ((w.setCurrentUser none).removeUserInfo).enqueue [⟨.main .showAuthVC, .unowned k⟩]
  else w

def step (w : World) (e : Event) : Option World :=
  if w.trapped then none
  else match e with
    | .enter kind => some (w.enter kind)
    | .request k job => w.screens[k]?.bind fun screen =>
        if screen.life = .attached ∧ screen.kind.requests job ∧ w.sends job then
          some (w.enqueue [⟨job, screen.kind.capture k job⟩])
        else none
    | .edit entry => some (w.store entry)
    | .signOut k ok => if w.isAttached k (· = .profile) then some (w.signOut k ok) else none
    | .showCards k shown =>
        if w.screens[k]?.any fun screen => screen.kind = .flashCards ∧ screen.life ≠ .tornDown then
          some (w.modifyScreen k fun screen => { screen with cards := shown })
        else none
    | .select k selectedInterests =>
        if w.isAttached k (· = .signUpInterests) then
          some (w.modifyScreen k fun screen => { screen with selectedInterests })
        else none
    | .leave k => if w.isAttached k fun _ => true then some (w.setLife k .left) else none
    | .teardown k =>
        if w.screens[k]?.any (·.life = .left) ∧ ¬ w.isHeld k then some (w.setLife k .tornDown)
        else none
    | .deliver i service => (pick w.pending i).bind fun (c, rest) =>
        { w with pending := rest }.runClosure service c

def launch (app : App) : World where
  app
  pending := app.currentUser.toList.map fun user => ⟨.auth (.userData user.uid), .nothing⟩

end World

def machine : Machine World Event where
  step := World.step

/-- No completion has met a screen that was gone, and none of a pending closure would: whichever
is delivered next, whatever it is answered. -/
structure Meeting (w : World) : Prop where
  met : w.trapped = false
  delivered : ∀ i service w', machine.step w (.deliver i service) = some w' → w'.trapped = false

/-- A screen is torn down once no closure is pending whose completion accesses it as unowned. -/
def Drained (w : World) : Event → Prop
  | .teardown k => ∀ c ∈ w.pending, c.accesses ≠ some k
  | _ => True

/-! ## Worlds that only gain closures of living screens -/

def Closure.Safe (w : World) (c : Closure) : Prop :=
  ∀ k, c.accesses = some k → ¬ w.TornDown k

/-- No screen was torn down, and every new closure is safe. -/
structure Extends (w w' : World) : Prop where
  tornDown : ∀ k, w'.TornDown k ↔ w.TornDown k
  trapped : w'.trapped = w.trapped
  pending : ∀ c ∈ w'.pending, c ∈ w.pending ∨ c.Safe w

section Extends

variable {w w' w'' : World}

theorem Extends.refl (w : World) : Extends w w :=
  ⟨fun _ => Iff.rfl, rfl, fun _ h => Or.inl h⟩

theorem Extends.safe_iff (h : Extends w w') {c : Closure} :
    c.Safe w' ↔ c.Safe w := by
  unfold Closure.Safe
  simp only [h.tornDown]

theorem Extends.trans (h : Extends w w') (h' : Extends w' w'') : Extends w w'' := by
  refine ⟨fun k => (h'.tornDown k).trans (h.tornDown k), h'.trapped.trans h.trapped, ?_⟩
  intro c hmem
  rcases h'.pending c hmem with hmem | hsafe
  · exact h.pending c hmem
  · exact Or.inr (h.safe_iff.mp hsafe)

theorem extends_enqueue {closures : List Closure} (h : ∀ c ∈ closures, c.Safe w) :
    Extends w (w.enqueue closures) := by
  refine ⟨fun _ => Iff.rfl, rfl, fun c hmem => ?_⟩
  rcases List.mem_append.mp hmem with hmem | hmem
  · exact Or.inl hmem
  · exact Or.inr (h c hmem)

theorem screen_of_accesses {c : Closure} {k : Nat} (h : c.accesses = some k) :
    c.capture.screen = some k := by
  unfold Closure.accesses at h
  split at h
  · cases h
  · exact h

theorem safe_of_capture {c next : Closure} (hsafe : c.Safe w)
    (hc : c.accesses = c.capture.screen) (hnext : next.capture = c.capture) : next.Safe w := by
  intro k hk
  refine hsafe k ?_
  rw [hc, ← hnext]
  exact screen_of_accesses hk

theorem observeValue_safe {key : Key} {screen : Screen} {k : Nat} {c : Closure}
    (hscreen : w.screens[k]? = some screen) (h : c ∈ w.observeValue key screen k) :
    c.Safe w := by
  have hcapture : c.capture = .unowned k ∧ screen.life ≠ .tornDown := by
    unfold World.observeValue at h
    split at h
    · cases h
    next hlife =>
      refine ⟨?_, hlife⟩
      split at h
      · split at h
        · obtain rfl := List.mem_singleton.mp h
          rfl
        · cases h
      · split at h
        · obtain rfl := List.mem_singleton.mp h
          rfl
        · cases h
      · split at h
        · obtain rfl := List.mem_singleton.mp h
          rfl
        · cases h
      · cases h
  rintro j hj ⟨other, hother, hlife⟩
  have hcaptured := screen_of_accesses hj
  rw [hcapture.1] at hcaptured
  obtain rfl := Option.some.inj hcaptured
  rw [hscreen] at hother
  obtain rfl := Option.mem_some_iff.mp hother
  exact hcapture.2 hlife

theorem extends_notify (w : World) (key : Key) : Extends w (w.notify key) := by
  refine extends_enqueue fun c hmem => ?_
  obtain ⟨⟨screen, k⟩, hscreen, hmem⟩ := List.mem_flatMap.mp hmem
  exact observeValue_safe (List.mem_zipIdx_iff_getElem?.mp hscreen) hmem

theorem extends_setCurrentUser (w : World) (user : Option User) :
    Extends w (w.setCurrentUser user) :=
  ⟨fun _ => Iff.rfl, rfl, fun _ h => Or.inl h⟩

theorem extends_setApp (w : World) (app : App) : Extends w { w with app } :=
  ⟨fun _ => Iff.rfl, rfl, fun _ h => Or.inl h⟩

theorem extends_setDefaults (w : World) (f : Defaults → Defaults) : Extends w (w.setDefaults f) :=
  ⟨fun _ => Iff.rfl, rfl, fun _ h => Or.inl h⟩

theorem extends_store (w : World) (entry : Key × Value) : Extends w (w.store entry) :=
  (extends_setDefaults w (UserRepository.store entry.1 entry.2)).trans (extends_notify _ entry.1)

theorem extends_foldl_store (entries : List (Key × Value)) (w : World) :
    Extends w (entries.foldl World.store w) := by
  induction entries generalizing w with
  | nil => exact Extends.refl w
  | cons entry entries ih => exact (extends_store w entry).trans (ih _)

theorem extends_replaceRoot (w : World) : Extends w w.replaceRoot := by
  refine ⟨fun k => ?_, rfl, fun _ h => Or.inl h⟩
  unfold World.TornDown World.replaceRoot
  rw [List.getElem?_map]
  cases w.screens[k]? with
  | none => simp
  | some screen =>
      simp only [Option.map_some, Option.mem_some_iff, exists_eq_left']
      by_cases hattached : screen.life = .attached
      · rw [if_pos hattached, hattached]
        simp
      · rw [if_neg hattached]

theorem tornDown_concat {screen : Screen} (h : screen.life ≠ .tornDown) (k : Nat) :
    { w with screens := w.screens ++ [screen] }.TornDown k ↔ w.TornDown k := by
  unfold World.TornDown
  rcases Nat.lt_trichotomy k w.screens.length with hk | rfl | hk
  · rw [List.getElem?_append_left hk]
  · simp [h]
  · rw [List.getElem?_eq_none (by simp; omega), List.getElem?_eq_none (by omega)]

theorem capture_screen {kind : Kind} {k j : Nat} {job : Job}
    (h : (kind.capture k job).screen = some j) : j = k := by
  cases job <;> cases kind <;> first | exact (Option.some.inj h).symm | cases h

theorem extends_enter (w : World) (kind : Kind) : Extends w (w.enter kind) := by
  have hnew : Extends w { w with screens := w.screens ++ [({ kind } : Screen)] } :=
    ⟨tornDown_concat (by simp), rfl, fun _ h => Or.inl h⟩
  refine hnew.trans (extends_enqueue fun c hmem => ?_)
  obtain ⟨job, -, rfl⟩ := List.mem_map.mp hmem
  rintro k hk
  obtain rfl := capture_screen (screen_of_accesses hk)
  rw [hnew.tornDown]
  rintro ⟨screen, hscreen, -⟩
  simp at hscreen

end Extends

/-! ## The writes of sign-out and login -/

section Writes

theorem observeValue_removed {w : World} {key : Key}
    (h : UserRepository.checkFor key w.app.defaults = false) (screen : Screen) (k : Nat) :
    w.observeValue key screen k = [] := by
  unfold World.observeValue
  split
  · rfl
  · split <;> simp [h]

theorem removeObject_eq (w : World) (key : Key) :
    w.removeObject key = w.setDefaults (UserRepository.removeObject key) := by
  have hgone : UserRepository.checkFor key
      (w.setDefaults (UserRepository.removeObject key)).app.defaults = false := by
    simp [World.setDefaults, UserRepository.checkFor, UserRepository.removeObject]
  unfold World.removeObject World.notify
  simp only [observeValue_removed hgone]
  rw [List.flatMap_eq_nil_iff.mpr fun _ _ => rfl, World.enqueue, List.append_nil]

/-- No request is sent when sign-out removes the stored profile. -/
theorem removeUserInfo_eq (w : World) :
    w.removeUserInfo = w.setDefaults UserRepository.removeUserInfo := by
  have hkeys : ∀ (keys : List Key) (w : World), keys.foldl World.removeObject w =
      w.setDefaults fun defaults =>
        keys.foldl (fun d key => UserRepository.removeObject key d) defaults := by
    intro keys
    induction keys with
    | nil => intro w; rfl
    | cons key keys ih =>
        intro w
        rw [List.foldl_cons, ih, removeObject_eq]
        rfl
  exact hkeys Key.allCases w

end Writes

/-! ## What the closures and the steps do -/

section Steps

variable {w w' : World}

theorem userData_silent {document : Option UserDocument} {app : App}
    {t : Trace App AuthRequest (Option String)}
    (h : updateUserData.onDocument document ⟨app, [], []⟩ = (some (), t)) :
    t.issued = [] ∧ t.completed = [] := by
  cases document with
  | none =>
      cases h
      exact ⟨rfl, rfl⟩
  | some document =>
      let start : Trace App AuthRequest (Option String) := ⟨app, [], []⟩
      cases hrefresh : document.refresh app.currentUser with
      | none =>
          obtain ⟨defaults, htrap⟩ := updateUserData.onDocument_incomplete start hrefresh
          rw [htrap] at h
          cases h
      | some refresh =>
          rw [updateUserData.onDocument_complete start hrefresh] at h
          cases h
          exact ⟨rfl, rfl⟩

theorem extends_answerAuth {service : Service} {request : AuthRequest} {capture : Capture}
    (hsafe : Closure.Safe w ⟨.auth request, capture⟩)
    (h : w.answerAuth service request capture = some w') : Extends w w' := by
  simp only [World.answerAuth] at h
  split at h
  · cases h
  next t hexec =>
    obtain rfl := Option.some.inj h
    have huser := extends_setCurrentUser w (service.currentUser request w.app.currentUser)
    have hstored := huser.trans (extends_foldl_store (stored service
      (w.setCurrentUser (service.currentUser request w.app.currentUser)).app request) _)
    have hwritten := hstored.trans (extends_setApp _ t.store)
    refine hwritten.trans (extends_enqueue fun next hmem => hwritten.safe_iff.mpr ?_)
    by_cases hrefresh : ∃ uid, request = .userData uid
    · obtain ⟨uid, rfl⟩ := hrefresh
      obtain ⟨hissued, hcompleted⟩ := userData_silent hexec
      rw [hissued, hcompleted] at hmem
      cases hmem
    · have haccesses : Closure.accesses ⟨.auth request, capture⟩ = capture.screen := by
        cases request with
        | userData uid => exact absurd ⟨uid, rfl⟩ hrefresh
        | signIn | loginDocument | createUser | setBasics | mergeInterests => rfl
      rcases List.mem_append.mp hmem with hmem | hmem
      · obtain ⟨_, -, rfl⟩ := List.mem_map.mp hmem
        exact safe_of_capture hsafe haccesses rfl
      · obtain ⟨_, -, rfl⟩ := List.mem_map.mp hmem
        exact safe_of_capture hsafe haccesses rfl

theorem extends_runMain (w : World) (capture : Capture) (part : MainPart) :
    Extends w (w.runMain capture part) := by
  cases part with
  | updateView | resetCornerRadius => exact Extends.refl w
  | showLoggedVC => exact extends_replaceRoot w
  | pushSignUpInterests => exact extends_enter w .signUpInterests
  | storeInterests => exact (extends_store w _).trans (extends_replaceRoot _)
  | showAuthVC =>
      rw [World.runMain, removeUserInfo_eq]
      exact (extends_setDefaults w _).trans (extends_replaceRoot _)

theorem extends_runJob {service : Service} {c : Closure} (hsafe : c.Safe w)
    (h : w.runJob service c = some w') : Extends w w' := by
  obtain ⟨job, capture⟩ := c
  cases job with
  | getAllNews | searchNews | getByCategory | getTopNews | refreshSavedNews =>
      obtain rfl := Option.some.inj h
      refine extends_enqueue fun next hmem => ?_
      obtain rfl := List.mem_singleton.mp hmem
      exact safe_of_capture hsafe rfl rfl
  | getSavedNews | saveArticle | unsaveArticle | loadImage =>
      obtain rfl := Option.some.inj h
      exact Extends.refl w
  | auth request => exact extends_answerAuth hsafe h
  | main part =>
      obtain rfl := Option.some.inj h
      exact extends_runMain w capture part

theorem extends_runClosure {service : Service} {c : Closure} (hsafe : c.Safe w)
    (h : w.runClosure service c = some w') : Extends w w' := by
  unfold World.runClosure at h
  split at h
  next k hk =>
    rw [if_neg fun hgone => hsafe k hk hgone.1] at h
    exact extends_runJob hsafe h
  · exact extends_runJob hsafe h

def adaDocument : UserDocument where
  firstname := some (.string "Ada")
  lastname := some (.string "Reader")
  country := some (.dictionary [("short", "bg")])
  interests := some (.strings ["science"])

def completing : Service where
  document := some adaDocument
  error := true

/-- Every closure that has a completion runs it after some answer. -/
theorem completes_completing {c : Closure} {k : Nat} (hk : c.accesses = some k) (w : World) :
    w.completes completing c.job = true := by
  obtain ⟨job, capture⟩ := c
  cases job with
  | auth request =>
      cases request with
      | userData uid => cases hk
      | signIn | loginDocument | createUser | setBasics | mergeInterests => rfl
  | getAllNews | searchNews | getByCategory | getTopNews | getSavedNews | refreshSavedNews
  | saveArticle | unsaveArticle | loadImage | main => rfl

theorem runClosure_tornDown {c : Closure} {k : Nat} (hk : c.accesses = some k)
    (hgone : w.TornDown k) :
    w.runClosure completing c = some { w with trapped := true } := by
  simp only [World.runClosure, hk, if_pos (And.intro hgone (completes_completing hk w))]

theorem deliver_eq (hmet : w.trapped = false) (i : Nat) (service : Service) :
    machine.step w (.deliver i service) = (pick w.pending i).bind fun (c, rest) =>
      { w with pending := rest }.runClosure service c := by
  simp only [machine, World.step, hmet, Bool.false_eq_true, if_false]

/-- All pending completions meet their screens exactly when each closure is safe. -/
theorem meeting_iff : Meeting w ↔ w.trapped = false ∧ ∀ c ∈ w.pending, c.Safe w := by
  constructor
  · intro hw
    refine ⟨hw.met, fun c hmem k hk hgone => ?_⟩
    obtain ⟨i, hi⟩ := List.mem_iff_getElem?.mp hmem
    have hpick : pick w.pending i = some (c, w.pending.eraseIdx i) := by
      rw [pick, hi]
      rfl
    have hstep := deliver_eq hw.met i completing
    have htrap : { w with pending := w.pending.eraseIdx i }.runClosure completing c = _ :=
      runClosure_tornDown hk hgone
    rw [hpick, Option.bind_some] at hstep
    cases hw.delivered i completing _ (hstep.trans htrap)
  · rintro ⟨hmet, hsafe⟩
    refine ⟨hmet, fun i service w' h => ?_⟩
    rw [deliver_eq hmet] at h
    obtain ⟨⟨c, rest⟩, hpick, h⟩ := Option.bind_eq_some_iff.mp h
    have hclosure : c.Safe { w with pending := rest } := hsafe c (mem_of_pick hpick)
    exact (extends_runClosure hclosure h).trapped.trans hmet

theorem meeting_of_extends (hw : Meeting w) (h : Extends w w') : Meeting w' := by
  rw [meeting_iff] at hw ⊢
  refine ⟨h.trapped.trans hw.1, fun c hmem => h.safe_iff.mpr ?_⟩
  rcases h.pending c hmem with hmem | hsafe
  · exact hw.2 c hmem
  · exact hsafe

theorem safe_of_attached {screen : Screen} {c : Closure} {k : Nat}
    (hscreen : w.screens[k]? = some screen) (hlife : screen.life = .attached)
    (hcapture : ∀ j, c.capture.screen = some j → j = k) : c.Safe w := by
  rintro j hj ⟨other, hother, hgone⟩
  obtain rfl := hcapture j (screen_of_accesses hj)
  rw [hscreen] at hother
  obtain rfl := Option.mem_some_iff.mp hother
  rw [hlife] at hgone
  cases hgone

theorem extends_signOut {k : Nat} {ok : Bool} (h : w.isAttached k (· = .profile)) :
    Extends w (w.signOut k ok) := by
  cases ok with
  | false => exact Extends.refl w
  | true =>
      rw [World.signOut, if_pos rfl, removeUserInfo_eq]
      have hcleared := (extends_setCurrentUser w none).trans
        (extends_setDefaults _ UserRepository.removeUserInfo)
      refine hcleared.trans (extends_enqueue fun c hmem => hcleared.safe_iff.mpr ?_)
      obtain rfl := List.mem_singleton.mp hmem
      cases hscreen : w.screens[k]? with
      | none => simp [World.isAttached, hscreen] at h
      | some screen =>
          have hlife : screen.life = .attached := by
            simp [World.isAttached, hscreen] at h
            exact h.1
          exact safe_of_attached hscreen hlife fun j hj => (Option.some.inj hj).symm

theorem extends_modifyScreen {k : Nat} {f : Screen → Screen}
    (h : ∀ screen ∈ w.screens[k]?, (f screen).life = .tornDown ↔ screen.life = .tornDown) :
    Extends w (w.modifyScreen k f) := by
  refine ⟨fun j => ?_, rfl, fun _ h => Or.inl h⟩
  unfold World.TornDown World.modifyScreen
  rw [List.getElem?_modify, Option.map_eq_map]
  by_cases hj : k = j
  · subst hj
    cases hscreen : w.screens[k]? with
    | none => simp
    | some screen => simp [h screen hscreen]
  · simp [hj]

theorem extends_leave {k : Nat} (h : w.isAttached k fun _ => true) :
    Extends w (w.setLife k .left) := by
  refine extends_modifyScreen fun screen hscreen => ?_
  have hlife : screen.life = .attached := by
    rw [World.isAttached, Option.mem_def.mp hscreen] at h
    simpa using h
  rw [hlife]
  simp

theorem tornDown_setLife {k : Nat} (h : w.screens[k]?.isSome) (j : Nat) :
    (w.setLife k .tornDown).TornDown j ↔ j = k ∨ w.TornDown j := by
  unfold World.TornDown World.setLife World.modifyScreen
  rw [List.getElem?_modify, Option.map_eq_map]
  by_cases hj : k = j
  · subst hj
    obtain ⟨screen, hscreen⟩ := Option.isSome_iff_exists.mp h
    simp [hscreen]
  · simp [hj, Ne.symm hj]

theorem meeting_teardown {k : Nat} (hw : Meeting w) (h : w.screens[k]?.isSome) :
    Meeting (w.setLife k .tornDown) ↔ Drained w (.teardown k) := by
  rw [meeting_iff] at hw ⊢
  constructor
  · rintro ⟨-, hsafe⟩ c hmem hk
    exact hsafe c hmem k hk ((tornDown_setLife h k).mpr (Or.inl rfl))
  · intro hdrained
    refine ⟨hw.1, fun c hmem j hj hgone => ?_⟩
    rcases (tornDown_setLife h j).mp hgone with rfl | hgone
    · exact hdrained c hmem hj
    · exact hw.2 c hmem j hj hgone

theorem meeting_step {e : Event} (hw : Meeting w) (h : machine.step w e = some w') :
    Meeting w' ↔ Drained w e := by
  have hextends : Extends w w' → (Meeting w' ↔ True) := fun h =>
    iff_of_true (meeting_of_extends hw h) trivial
  obtain ⟨-, h⟩ := Option.ite_none_left_eq_some.mp h
  cases e with
  | enter kind =>
      obtain rfl := Option.some.inj h
      exact hextends (extends_enter w kind)
  | request k job =>
      obtain ⟨screen, hscreen, h⟩ := Option.bind_eq_some_iff.mp h
      obtain ⟨⟨hlife, -, -⟩, h⟩ := Option.ite_none_right_eq_some.mp h
      obtain rfl := Option.some.inj h
      refine hextends (extends_enqueue fun c hmem => ?_)
      obtain rfl := List.mem_singleton.mp hmem
      exact safe_of_attached hscreen hlife fun j => capture_screen
  | edit entry =>
      obtain rfl := Option.some.inj h
      exact hextends (extends_store w entry)
  | signOut k ok =>
      obtain ⟨hattached, h⟩ := Option.ite_none_right_eq_some.mp h
      obtain rfl := Option.some.inj h
      exact hextends (extends_signOut hattached)
  | leave k =>
      obtain ⟨hattached, h⟩ := Option.ite_none_right_eq_some.mp h
      obtain rfl := Option.some.inj h
      exact hextends (extends_leave hattached)
  | showCards k shown =>
      obtain ⟨-, h⟩ := Option.ite_none_right_eq_some.mp h
      obtain rfl := Option.some.inj h
      exact hextends (extends_modifyScreen fun _ _ => Iff.rfl)
  | select k interests =>
      obtain ⟨-, h⟩ := Option.ite_none_right_eq_some.mp h
      obtain rfl := Option.some.inj h
      exact hextends (extends_modifyScreen fun _ _ => Iff.rfl)
  | teardown k =>
      obtain ⟨⟨hleft, -⟩, h⟩ := Option.ite_none_right_eq_some.mp h
      obtain rfl := Option.some.inj h
      refine meeting_teardown hw ?_
      cases hscreen : w.screens[k]? with
      | none => simp [hscreen] at hleft
      | some screen => rfl
  | deliver i service =>
      obtain ⟨⟨c, rest⟩, hpick, h⟩ := Option.bind_eq_some_iff.mp h
      rw [meeting_iff] at hw
      have hclosure : c.Safe { w with pending := rest } := hw.2 c (mem_of_pick hpick)
      have hrest : Extends w { w with pending := rest } :=
        ⟨fun _ => Iff.rfl, rfl, fun c hc => Or.inl (mem_of_mem_pick hpick hc)⟩
      exact hextends (hrest.trans (extends_runClosure hclosure h))

end Steps

/-! ## Replies and their screens -/

/-- **Lifetime.** In every run from a launch, however screens come and go, log in and out, and
answers and queued parts arrive: no completion that captures its screen as unowned has run after
the screen was torn down, and none of a pending closure would, exactly as long as every screen is
torn down once no such closure of its own is pending. -/
theorem replies_meet_screens {app : App} {as : List Event} :
    machine.Always Meeting (World.launch app) as ↔ machine.Meets Drained (World.launch app) as := by
  have hlaunch : Meeting (World.launch app) := by
    refine meeting_iff.mpr ⟨rfl, fun c hmem k hk => ?_⟩
    obtain ⟨user, -, rfl⟩ := List.mem_map.mp hmem
    cases hk
  exact machine.always_iff_meets (I := fun _ => True) (fun _ _ _ => trivial)
    (fun _ hw h => meeting_step hw h) trivial hlaunch

def categoryPopped : List Event := [.enter .category, .leave 0, .teardown 0, .deliver 0 {}]

theorem reply_misses_screen :
    ¬ ∀ (app : App) (as : List Event), machine.Always Meeting (World.launch app) as := by
  intro h
  have hends : (machine.run (World.launch {}) categoryPopped).isSome := by decide +kernel
  have htrapped : ∀ w ∈ machine.run (World.launch {}) categoryPopped, w.trapped = true := by
    decide +kernel
  refine machine.not_always_of_run hends (fun w hw hmeeting => ?_) (h {} categoryPopped)
  have hmet := hmeeting.met
  rw [htrapped w hw] at hmet
  cases hmet

end NewsFlash.Screens.Lifetime
