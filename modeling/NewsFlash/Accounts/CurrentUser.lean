import NewsFlash.Library.InFlight
import NewsFlash.Library.Machine
import NewsFlash.Library.Triple
import NewsFlash.Models.Authentication
import NewsFlash.Models.Networking

/-!
# The forced unwraps of the user

`Auth.auth().currentUser!` stands in seven places. A guest has the same tabs as a user, rows
and cards can be saved from all of them, and closures and editors outlive a sign-out. Other
places look before they unwrap. An unwrap has not found its user where code traps that would
have done something else with a user; `SignedIn` says exactly which steps run no such code.
-/

namespace NewsFlash.Accounts.CurrentUser

open NewsFlash.Library NewsFlash.Models NewsFlash.Models.Authentication

/-! ## The editors of the profile -/

structure UpdateData where
  uid : Uid
  fields : List (Key × Value)
deriving DecidableEq, Repr

/-- The interests are captured when the screen is created. -/
def EditUserInterestsViewController.viewDidDisappear [Observers]
    (interests : Option (List String)) : Callback App UpdateData Unit Unit := do
  match interests with
  | none => return
  | some interests =>
      App.store .interests (.strings interests)
      let currentUser ← App.forcedCurrentUser
      Callback.send ⟨currentUser.uid, [(.interests, .strings interests)]⟩

/-- A name that is left empty keeps its old value. -/
def EditUserDetailsViewController.viewDidDisappear [Observers] (firstName lastName : String)
    (country : Country) : Callback App UpdateData Unit Unit := do
  match ← Callback.read App.currentUser with
  | none => return
  | some currentUser =>
      let names := [(Key.firstname, Value.string firstName), (.lastname, .string lastName)].filter
        fun entry => entry.2 ≠ .string ""
      let fields := names ++ [(.country, .dictionary country)]
      forM fields fun entry => App.store entry.1 entry.2
      Callback.send ⟨currentUser.uid, fields⟩

def AppSettingsViewController.viewDidDisappear [Observers] (isCountrySpecific : Bool)
    (language : String) : Callback App UpdateData Unit Unit := do
  App.store .isCountrySpecific (.bool isCountrySpecific)
  App.store .resultLanguage (.string language)

/-! ## Sessions -/

inductive Shelf where
  | forYou | search | category | flashCards | saved
deriving DecidableEq, Repr

namespace Shelf

def articles (news : News) : Shelf → List Article
  | forYou => news.allNews
  | search => news.searchResults
  | category => news.categoryNews
  | flashCards => news.topNews
  | saved => news.savedNews

def assign (articles : List Article) (news : News) : Shelf → News
  | forYou => { news with allNews := articles }
  | search => { news with searchResults := articles }
  | category => { news with categoryNews := articles }
  | flashCards => { news with topNews := articles }
  | saved => { news with savedNews := articles }

end Shelf

inductive Editor where
  | interests (interests : Option (List String))
  | details
  | settings
deriving DecidableEq, Repr

/-- `profile` tells whether the loaded profile screen shows the controls of a user. `signedIn`
records what the last sign-in or sign-out has reported. Once a step has trapped, `stopped` tells
what its code would have done under each user. -/
structure Session where
  app : App
  observers : Observers := unobserved
  signedIn : Bool := false
  profile : Option Bool := none
  editor : Option Editor := none
  inFlight : List AuthRequest := []
  expanding : Nat := 0
  stopped : Option (Option User → Option Unit × Defaults) := none

/-- Answers about articles only fill the arrays, with whatever they bring. The captured flag
of a row or a card decides between a save and an unsave. Screens that observe the profile come
and go. -/
inductive Action where
  | load (shelf : Shelf) (articles : List Article)
  | bookmark (shelf : Shelf) (row : Nat) (saved : Bool)
  | getSavedNews
  | openProfile
  | openEditor (editor : Editor)
  | toggleInterest (interest : String)
  | closeInterests
  | closeDetails (firstName lastName : String) (country : Country)
  | closeSettings (isCountrySpecific : Bool) (language : String)
  | login (email password : String)
  | signUpBasics (firstName lastName email password : String) (country : Country)
  | signUpInterests (interests : List String)
  | expanded (selectedInterests : List String)
  | signOut (ok : Bool)
  | removeUserInfo
  | observe (observers : Observers)
  | deliver (i : Nat) (service : Service)

/-- Of the requests about saved articles only the sending matters here. -/
abbrev SavedCode := Callback App (Networking.SavedRequest Unit) Unit Unit

/-- How the code ends under a user, and the profile that it leaves. -/
def outcome {ρ : Type} (code : Callback App ρ Unit Unit) (app : App) (currentUser : Option User) :
    Option Unit × Defaults :=
  let (result, t) := code.exec { app with currentUser }
  (result, t.store.defaults)

def signsIn (service : Service) : AuthRequest → Bool
  | .signIn .. => service.signedIn.toOption.isSome
  | .createUser .. => service.created.toOption.isSome
  | _ => false

namespace Session

variable {ρ : Type}

/-- Run the code; the process ends where it traps. -/
def run (s : Session) (code : Callback App ρ Unit Unit) : Session :=
  let (result, t) := code.exec s.app
  { s with
    app := t.store
    expanding := s.expanding + t.completed.length
    stopped := if result.isNone then some (outcome code s.app) else none }

def react (s : Session) (code : Callback App AuthRequest Unit Unit) : Session :=
  { s.run code with inFlight := s.inFlight ++ (code.exec s.app).2.issued }

def observed (s : Session) (code : [Observers] → Callback App ρ Unit Unit) :
    Callback App ρ Unit Unit :=
  @code s.observers

/-- The profile screen shows its controls to whoever has a first name stored. -/
def configureElements (s : Session) : Session :=
  { s with profile := some (UserRepository.checkFor .firstname s.app.defaults) }

def storedInterests (s : Session) : Option (List String) :=
  (UserRepository.fetch .interests s.app.defaults).bind Value.asStrings

def bookmark (s : Session) (shelf : Shelf) (row : Nat) (saved : Bool) : Option Session :=
  (shelf.articles s.app.news)[row]?.map fun article =>
    if saved ∨ shelf = .saved then
      s.run (Networking.unsaveArticle (article.url.getD "") () : SavedCode)
    else s.run (Networking.saveArticle article () : SavedCode)

/-- Only the screen of a user opens an editor; one for the interests is created with those
that are stored. -/
def openEditor (s : Session) (editor : Editor) : Option Session :=
  if s.profile = some true ∧ s.editor = none then
    match editor with
    | .interests _ => some { s with editor := some (.interests s.storedInterests) }
    | editor => some { s with editor := some editor }
  else none

def closeInterests (s : Session) : Option Session :=
  match s.editor with
  | some (.interests interests) => some ({ s with editor := none }.run
      (s.observed (EditUserInterestsViewController.viewDidDisappear interests)))
  | _ => none

def deliver (s : Session) (service : Service) (request : AuthRequest) : Session :=
  { s with
    app := { s.app with currentUser := service.currentUser request s.app.currentUser }
    signedIn := s.signedIn || signsIn service request }.react
      (s.observed (Authentication.closure service request))

def step (s : Session) (a : Action) : Option Session :=
  if s.stopped.isSome then none
  else match a with
    | .load shelf articles =>
        some { s with app := { s.app with news := shelf.assign articles s.app.news } }
    | .bookmark shelf row saved => s.bookmark shelf row saved
    | .getSavedNews => some (s.run (Networking.getSavedNews : SavedCode))
    | .openProfile => some s.configureElements
    | .openEditor editor => s.openEditor editor
    | .toggleInterest interest => match s.editor with
        | some (.interests interests) => some { s with editor := some (.interests
            (interests.map fun interests =>
              if interest ∈ interests then interests.filter (· ≠ interest)
              else interests ++ [interest])) }
        | _ => none
    | .closeInterests => s.closeInterests
    | .closeDetails firstName lastName country =>
        if s.editor = some .details then some ({ s with editor := none }.run
          (s.observed (EditUserDetailsViewController.viewDidDisappear firstName lastName country)))
        else none
    | .closeSettings isCountrySpecific language =>
        if s.editor = some .settings then some ({ s with editor := none }.run
          (s.observed (AppSettingsViewController.viewDidDisappear isCountrySpecific language)))
        else none
    | .login email password => some (s.react (Authentication.login email password))
    | .signUpBasics firstName lastName email password country =>
        some (s.react (Authentication.signUpBasics firstName lastName email password country))
    | .signUpInterests interests => some (s.react (Authentication.signUpInterests interests))
    | .expanded selectedInterests =>
        if 0 < s.expanding then some ({ s with expanding := s.expanding - 1 }.react
          (s.observed (SignUpInterestsViewController.onExpanded selectedInterests)))
        else none
    | .signOut ok => some ({ s with signedIn := s.signedIn && !ok }.react
        (s.observed (Authentication.signOut (fun _ => pure ()) ok)))
    -- The profile screen clears once more when its button has stopped.
    | .removeUserInfo => some (s.react (s.observed App.removeUserInfo))
    | .observe observers => some { s with observers }
    | .deliver i service => (pick s.inFlight i).map fun (request, rest) =>
        { s with inFlight := rest }.deliver service request

def launch (currentUser : Option User) (defaults : Defaults) : Session :=
  let s : Session := { app := { currentUser, defaults }, signedIn := currentUser.isSome }
  if currentUser.isSome then
    (s.react Authentication.updateUserData).run (Networking.updateSavedUrls : SavedCode)
  else s

end Session

def machine : Machine Session Action where
  step := Session.step

/-- No code has trapped for want of a user: where it has trapped while nobody was signed in, it
would have done the same under every user. -/
def Found (s : Session) : Prop :=
  ∀ under ∈ s.stopped, s.app.currentUser = none → ∀ user, under (some user) = under none

/-! ## When a step finds its user -/

/-- The closure of `updateUserData` gets past both names. -/
def storesNames (observers : Observers) (defaults : Defaults) (service : Service) :
    AuthRequest → Bool
  | .userData _ => service.document.any fun document =>
      match document.firstname, document.lastname with
      | some firstname, some lastname =>
          Observers.through [(.firstname, firstname), (.lastname, lastname)] defaults
      | _, _ => false
  | _ => false

/-- Somebody has signed in before an article is saved or unsaved and before the first interests
are chosen; before the editor of the interests closes, if it has interests and can store them;
and before a document arrives whose names can be stored. -/
def SignedIn (s : Session) : Action → Prop
  | .bookmark .. | .signUpInterests _ => s.signedIn = true
  | .closeInterests => ∀ interests, s.editor = some (.interests (some interests)) →
      s.observers.run .interests
        (UserRepository.store .interests (.strings interests) s.app.defaults) = true →
      s.signedIn = true
  | .deliver i service => ∀ picked ∈ pick s.inFlight i,
      storesNames s.observers s.app.defaults service picked.1 = true → s.signedIn = true
  | _ => True

/-! ## Code that does not look at the user -/

def withUser (currentUser : Option User) (app : App) : App := { app with currentUser }

/-- The code does the same whoever is signed in. -/
def IgnoresUser {ρ β : Type} (code : Callback App ρ Unit β) : Prop :=
  ∀ currentUser, Callback.Commutes (withUser currentUser) code

section IgnoresUser

variable {ρ : Type}

theorem ignores_bind {β γ : Type} {code : Callback App ρ Unit β}
    {rest : β → Callback App ρ Unit γ} (hcode : IgnoresUser code)
    (hrest : ∀ b, IgnoresUser (rest b)) : IgnoresUser (code >>= rest) :=
  fun currentUser => Callback.commutes_bind (hcode currentUser) fun b => hrest b currentUser

theorem ignores_pure : IgnoresUser (pure () : Callback App ρ Unit Unit) :=
  fun _ => Callback.commutes_pure ()

theorem ignores_send (request : ρ) :
    IgnoresUser (Callback.send request : Callback App ρ Unit Unit) :=
  fun _ => Callback.commutes_send request

theorem ignores_forced {β : Type} (value : Option β) :
    IgnoresUser (Callback.forced value : Callback App ρ Unit β) :=
  fun _ => Callback.commutes_forced value

variable [Observers]

theorem ignores_store (key : Key) (value : Value) :
    IgnoresUser (App.store key value : Callback App ρ Unit Unit) := fun _ =>
  Callback.commutes_bind (Callback.commutes_write fun _ => rfl) fun _ =>
    Callback.commutes_check fun _ => rfl

theorem ignores_removeUserInfo : IgnoresUser (App.removeUserInfo : Callback App ρ Unit Unit) :=
  fun _ => Callback.commutes_forM fun _ =>
    Callback.commutes_bind (Callback.commutes_write fun _ => rfl) fun _ =>
      Callback.commutes_check fun _ => rfl

theorem ignores_onDocument (email : String) (document : Option UserDocument) :
    IgnoresUser (login.onDocument (fun _ => pure ()) email document) := by
  cases document with
  | none => exact ignores_pure
  | some document =>
      refine ignores_bind (ignores_forced _) fun lastname => ?_
      refine ignores_bind (ignores_store _ _) fun _ => ignores_bind (ignores_forced _) ?_
      refine fun firstname => ignores_bind (ignores_store _ _) fun _ => ?_
      refine ignores_bind (ignores_forced _) fun country => ignores_bind (ignores_store _ _) ?_
      refine fun _ => ignores_bind (ignores_forced _) fun interests => ?_
      refine ignores_bind (ignores_store _ _) fun _ => ignores_bind (ignores_store _ _) ?_
      refine fun _ => ignores_bind (ignores_store _ _) fun _ => ?_
      exact ignores_bind (ignores_store _ _) fun _ => ignores_pure

theorem ignores_onSaved (firstName lastName email : String) (country : Country) (error : Bool) :
    IgnoresUser
      (signUpBasics.onSaved (fun _ => pure ()) firstName lastName email country error) := by
  cases error with
  | true => exact ignores_pure
  | false =>
      refine ignores_bind (ignores_store _ _) fun _ => ignores_bind (ignores_store _ _) fun _ => ?_
      refine ignores_bind (ignores_store _ _) fun _ => ignores_bind (ignores_store _ _) fun _ => ?_
      refine ignores_bind (ignores_store _ _) fun _ => ignores_bind (ignores_store _ _) fun _ => ?_
      exact ignores_pure

theorem ignores_closure (service : Service) {request : AuthRequest}
    (hrequest : ∀ uid, request ≠ .userData uid) :
    IgnoresUser (Authentication.closure service request) := by
  cases request with
  | signIn email password =>
      change IgnoresUser (login.onSignIn (fun _ => pure ()) email service.signedIn)
      cases service.signedIn with
      | error message => exact ignores_pure
      | ok user => exact ignores_send _
  | loginDocument uid email => exact ignores_onDocument email service.document
  | userData uid => exact absurd rfl (hrequest uid)
  | createUser firstName lastName email password country =>
      change IgnoresUser
        (signUpBasics.onCreated (fun _ => pure ()) firstName lastName email country service.created)
      cases service.created with
      | error message => exact ignores_pure
      | ok user => exact ignores_send _
  | setBasics uid firstName lastName email country =>
      exact ignores_onSaved firstName lastName email country service.error
  | mergeInterests uid interests =>
      change IgnoresUser
        (signUpInterests.onSaved SignUpInterestsViewController.onSignedUp service.error)
      cases service.error with
      | true => exact ignores_pure
      | false => exact fun _ => Callback.commutes_complete ()

end IgnoresUser

/-! ## Code that keeps the user -/

/-- The code leaves `p` of the store as it was. -/
def Leaves {ρ β γ : Type} (p : App → γ) (code : Callback App ρ Unit β) : Prop :=
  ∀ value, Callback.Triple (fun app => p app = value) (fun _ => True) code fun _ => True

section Leaves

variable {ρ β γ : Type} {p : App → γ}

theorem Leaves.exec {code : Callback App ρ Unit β} (h : Leaves p code) (app : App) :
    p (code.exec app).2.store = p app :=
  ((h (p app)).exec rfl).1

theorem leaves_bind {δ : Type} {code : Callback App ρ Unit β} {rest : β → Callback App ρ Unit δ}
    (hcode : Leaves p code) (hrest : ∀ b, Leaves p (rest b)) : Leaves p (code >>= rest) :=
  fun value => .bind (hcode value) fun b _ => hrest b value

theorem leaves_pure : Leaves p (pure () : Callback App ρ Unit Unit) := fun _ => .pure trivial

theorem leaves_send (request : ρ) : Leaves p (Callback.send request : Callback App ρ Unit Unit) :=
  fun _ => .send trivial

theorem leaves_forced (value : Option β) :
    Leaves p (Callback.forced value : Callback App ρ Unit β) :=
  fun _ => .forced fun _ _ => trivial

theorem leaves_forcedCurrentUser : Leaves p (App.forcedCurrentUser : Callback App ρ Unit User) :=
  leaves_bind (fun _ => .read fun _ _ => trivial) leaves_forced

theorem leaves_store [Observers] {key : Key} {value : Value}
    (h : ∀ app : App, p { app with defaults := UserRepository.store key value app.defaults } = p app) :
    Leaves p (App.store key value : Callback App ρ Unit Unit) :=
  fun _ => .bind (.write fun app happ => (h app).trans happ) fun _ _ => .check

theorem leaves_of_ignores {code : Callback App ρ Unit Unit} (h : IgnoresUser code) :
    Leaves App.currentUser code := by
  intro value t hvalue _
  have hsame : code t = ((code t).1, { (code t).2 with
      store := withUser t.store.currentUser (code t).2.store }) := h t.store.currentUser t
  have huser : (code t).2.store.currentUser = t.store.currentUser := by rw [hsame]; rfl
  exact ⟨huser.trans hvalue, fun _ _ => trivial, fun _ _ => trivial⟩

end Leaves

/-! ## What a run of code finds -/

section Run

variable {s : Session} {ρ : Type} {code : Callback App ρ Unit Unit}

theorem outcome_eq (app : App) (currentUser : Option User) :
    outcome code app currentUser =
      ((code ⟨withUser currentUser app, [], []⟩).1,
        (code ⟨withUser currentUser app, [], []⟩).2.store.defaults) := rfl

theorem found_of_ends (h : (code.exec s.app).1.isSome) : Found (s.run code) := by
  intro under hunder
  change under ∈ if (code.exec s.app).1.isNone then some (outcome code s.app) else none at hunder
  rw [Option.isNone_eq_false_iff.mpr h] at hunder
  cases hunder

theorem found_of_alike (hleaves : Leaves App.currentUser code)
    (halike : s.app.currentUser = none →
      ∀ user, outcome code s.app (some user) = outcome code s.app none) :
    Found (s.run code) := by
  intro under hunder huser user
  change under ∈ if (code.exec s.app).1.isNone then some (outcome code s.app) else none at hunder
  split at hunder
  · obtain rfl := Option.some.inj hunder
    exact halike ((hleaves.exec s.app).symm.trans huser) user
  · cases hunder

theorem found_of_guarded (hleaves : Leaves App.currentUser code)
    (hguarded : s.app.currentUser = none → (code.exec s.app).1 = some ()) :
    Found (s.run code) := by
  cases huser : s.app.currentUser with
  | none => exact found_of_ends (Option.isSome_of_mem (hguarded huser))
  | some user =>
      refine found_of_alike hleaves fun hnone => ?_
      rw [huser] at hnone
      cases hnone

theorem found_of_ignores (h : IgnoresUser code) : Found (s.run code) := by
  refine found_of_alike (leaves_of_ignores h) fun _ user => ?_
  rw [outcome_eq, outcome_eq, h (some user) ⟨s.app, [], []⟩, h none ⟨s.app, [], []⟩]
  rfl

def Idle (code : Callback App ρ Unit Unit) (t : Trace App ρ Unit) : Prop :=
  (code t).1 = none ∧ (code t).2.store.defaults = t.store.defaults

section Unwraps

variable {first : Callback App ρ Unit Unit} {rest : User → Callback App ρ Unit Unit}

theorem outcome_of_trap {t : Trace App ρ Unit} (hfirst : IgnoresUser first)
    (hrun : first ⟨s.app, [], []⟩ = (none, t)) (currentUser : Option User) :
    outcome (first >>= fun _ => App.forcedCurrentUser >>= rest) s.app currentUser =
      (none, t.store.defaults) := by
  rw [outcome_eq, Callback.bind_apply, hfirst currentUser ⟨s.app, [], []⟩, hrun]
  rfl

theorem outcome_none {t : Trace App ρ Unit} (hfirst : IgnoresUser first)
    (hrun : first ⟨s.app, [], []⟩ = (some (), t)) :
    outcome (first >>= fun _ => App.forcedCurrentUser >>= rest) s.app none =
      (none, t.store.defaults) := by
  rw [outcome_eq, Callback.bind_apply, hfirst none ⟨s.app, [], []⟩, hrun]
  simp only [Callback.bind_apply, App.forcedCurrentUser_apply]
  rfl

theorem outcome_some {t : Trace App ρ Unit} (hfirst : IgnoresUser first)
    (hrun : first ⟨s.app, [], []⟩ = (some (), t)) (user : User) :
    outcome (first >>= fun _ => App.forcedCurrentUser >>= rest) s.app (some user) =
      ((rest user { t with store := withUser (some user) t.store }).1,
        (rest user { t with store := withUser (some user) t.store }).2.store.defaults) := by
  rw [outcome_eq, Callback.bind_apply, hfirst (some user) ⟨s.app, [], []⟩, hrun]
  simp only [Callback.bind_apply, App.forcedCurrentUser_apply]
  rfl

/-- Code that looks at the user once it has come so far, and does something with one. -/
theorem found_unwraps (hfirst : IgnoresUser first)
    (hrest : ∀ user, Leaves App.currentUser (rest user))
    (hacts : ∀ t : Trace App ρ Unit, ∃ user,
      ¬ Idle (rest user) { t with store := withUser (some user) t.store }) :
    Found (s.run (first >>= fun _ => App.forcedCurrentUser >>= rest)) ↔
      ((first.exec s.app).1.isSome → s.app.currentUser.isSome) := by
  have hleaves : Leaves App.currentUser (first >>= fun _ => App.forcedCurrentUser >>= rest) :=
    leaves_bind (leaves_of_ignores hfirst) fun _ => leaves_bind leaves_forcedCurrentUser hrest
  rcases hrun : first ⟨s.app, [], []⟩ with ⟨_ | _, t⟩
  · rw [Callback.exec_apply, hrun]
    refine iff_of_true (found_of_alike hleaves fun _ user => ?_) fun hends => by cases hends
    rw [outcome_of_trap hfirst hrun, outcome_of_trap hfirst hrun]
  · rw [Callback.exec_apply, hrun]
    constructor
    · intro hfound _
      by_contra hsome
      have hnone : s.app.currentUser = none := Option.not_isSome_iff_eq_none.mp hsome
      have hstopped : (s.run (first >>= fun _ => App.forcedCurrentUser >>= rest)).stopped =
          some (outcome (first >>= fun _ => App.forcedCurrentUser >>= rest) s.app) := by
        refine if_pos (Option.isNone_iff_eq_none.mpr ?_)
        have htrap : (outcome (first >>= fun _ => App.forcedCurrentUser >>= rest) s.app
            none).1 = none := by
          rw [outcome_none hfirst hrun]
        rwa [outcome_eq, ← hnone] at htrap
      obtain ⟨user, hidle⟩ := hacts t
      have halike := hfound _ hstopped ((hleaves.exec s.app).trans hnone) user
      rw [outcome_some hfirst hrun, outcome_none hfirst hrun] at halike
      exact hidle ⟨congrArg Prod.fst halike, congrArg Prod.snd halike⟩
    · intro hsome
      refine found_of_alike hleaves fun hnone => ?_
      rw [hnone] at hsome
      cases hsome rfl

theorem found_sends {request : User → ρ} :
    Found (s.run (App.forcedCurrentUser >>= fun user => Callback.send (request user))) ↔
      s.app.currentUser.isSome := by
  have hrun := found_unwraps (s := s) ignores_pure (fun user => leaves_send (request user))
    fun t => ⟨⟨"", none⟩, fun hidle => by cases hidle.1⟩
  exact hrun.trans ⟨fun h => h rfl, fun h _ => h⟩

end Unwraps

end Run

/-! ## What each step finds -/

section Steps

variable {s s' : Session}

theorem found_bookmark {shelf : Shelf} {row : Nat} {saved : Bool}
    (h : s.bookmark shelf row saved = some s') : Found s' ↔ s.app.currentUser.isSome := by
  obtain ⟨article, -, rfl⟩ := Option.map_eq_some_iff.mp h
  split
  · exact found_sends
  · exact found_sends

theorem found_closeInterests (h : s.closeInterests = some s') :
    Found s' ↔ ∀ interests, s.editor = some (.interests (some interests)) →
      s.observers.run .interests
        (UserRepository.store .interests (.strings interests) s.app.defaults) = true →
      s.app.currentUser.isSome := by
  unfold Session.closeInterests at h
  split at h
  next interests heditor =>
    obtain rfl := Option.some.inj h
    rw [heditor]
    cases interests with
    | none => exact iff_of_true (found_of_ends rfl) fun _ heq => by cases heq
    | some interests =>
        let _ := s.observers
        refine Iff.trans (found_unwraps (ignores_store .interests (.strings interests))
          (fun user => leaves_send _) fun t => ⟨⟨"", none⟩, fun hidle => by cases hidle.1⟩) ?_
        rw [Callback.exec_apply, App.store_apply]
        change (Option.isSome (if s.observers.run _ _ = true then _ else _) = true → _) ↔ _
        constructor
        · rintro hfound _ heq hstored
          obtain rfl := Option.some.inj (Editor.interests.inj (Option.some.inj heq))
          refine hfound ?_
          rw [if_pos hstored]
          rfl
        · intro hfound hends
          refine hfound interests rfl ?_
          by_contra hstored
          rw [if_neg hstored] at hends
          cases hends
  · cases h

def storeNames [Observers] (document : UserDocument) : Callback App AuthRequest Unit Unit := do
  App.store .firstname (← Callback.forced document.firstname)
  App.store .lastname (← Callback.forced document.lastname)

def storeProfile [Observers] (document : UserDocument) (currentUser : User) :
    Callback App AuthRequest Unit Unit := do
  let email ← Callback.forced currentUser.email
  App.store .email (.string email)
  let country ← Callback.forced (document.country.bind Value.asDictionary)
  App.store .country (.dictionary country)
  let interests ← Callback.forced (document.interests.bind Value.asStrings)
  App.store .interests (.strings interests)

theorem onDocument_eq [Observers] (document : UserDocument) :
    updateUserData.onDocument (some document) =
      (storeNames document >>= fun _ => App.forcedCurrentUser >>= storeProfile document) := by
  simp only [storeNames, bind_assoc]
  rfl

section StoreProfile

variable [Observers] (document : UserDocument) (currentUser : User)

theorem ignores_storeNames : IgnoresUser (storeNames document) :=
  ignores_bind (ignores_forced _) fun _ => ignores_bind (ignores_store _ _) fun _ =>
    ignores_bind (ignores_forced _) fun _ => ignores_store _ _

theorem leaves_storeProfile : Leaves App.currentUser (storeProfile document currentUser) :=
  leaves_bind (leaves_forced _) fun _ => leaves_bind (leaves_store fun _ => rfl) fun _ =>
    leaves_bind (leaves_forced _) fun _ => leaves_bind (leaves_store fun _ => rfl) fun _ =>
      leaves_bind (leaves_forced _) fun _ => leaves_store fun _ => rfl

theorem storeProfile_email {email : String} (hemail : currentUser.email = some email)
    (t : Trace App AuthRequest Unit) :
    (storeProfile document currentUser t).2.store.defaults .email = some (.string email) := by
  have hrest : Leaves (fun app : App => app.defaults .email) (do
      let country ← Callback.forced (document.country.bind Value.asDictionary)
      App.store .country (.dictionary country)
      let interests ← Callback.forced (document.interests.bind Value.asStrings)
      App.store .interests (.strings interests) : Callback App AuthRequest Unit Unit) :=
    leaves_bind (leaves_forced _) fun _ => leaves_bind (leaves_store fun _ => rfl) fun _ =>
      leaves_bind (leaves_forced _) fun _ => leaves_store fun _ => rfl
  rw [storeProfile, hemail, Callback.forced_some, pure_bind, Callback.bind_apply, App.store_apply]
  cases Observers.run .email (UserRepository.store .email (.string email) t.store.defaults) with
  | false => rfl
  | true => exact (hrest (some (.string email)) _ rfl fun _ _ => trivial).1

/-- Some user has another e-mail than the one that is stored. -/
theorem storeProfile_acts (t : Trace App AuthRequest Unit) :
    ∃ user, ¬ Idle (storeProfile document user)
      { t with store := withUser (some user) t.store } := by
  have hother : ∃ email, t.store.defaults .email ≠ some (.string email) := by
    by_contra hall
    have hempty : t.store.defaults .email = some (.string "") := not_ne_iff.mp (not_exists.mp hall _)
    have hblank : t.store.defaults .email = some (.string " ") :=
      not_ne_iff.mp (not_exists.mp hall _)
    have hsame := Option.some.inj (hempty.symm.trans hblank)
    revert hsame
    decide
  obtain ⟨email, hother⟩ := hother
  refine ⟨⟨"", some email⟩, fun hidle => hother ?_⟩
  rw [← storeProfile_email document ⟨"", some email⟩ rfl, hidle.2]
  rfl

theorem storeNames_ends (uid : Uid) (service : Service)
    (hdocument : service.document = some document) (app : App) :
    ((storeNames document).exec app).1.isSome =
      storesNames ‹Observers› app.defaults service (.userData uid) := by
  rw [storesNames, hdocument, Option.any_some, Callback.exec_apply, storeNames]
  cases hfirstname : document.firstname with
  | none => rfl
  | some firstname =>
      rw [Callback.forced_some, pure_bind, Callback.bind_apply, App.store_apply]
      cases hlastname : document.lastname with
      | none => cases Observers.run .firstname _ <;> rfl
      | some lastname =>
          simp only [Observers.through]
          cases Observers.run .firstname (UserRepository.store .firstname firstname app.defaults) with
          | false => rfl
          | true =>
              simp only [if_true, Callback.forced_some, pure_bind, App.store_apply, Bool.true_and]
              cases Observers.run .lastname _ <;> rfl

theorem found_closure {service : Service} {request : AuthRequest} (s : Session) :
    Found (s.run (Authentication.closure service request)) ↔
      (storesNames ‹Observers› s.app.defaults service request = true → s.app.currentUser.isSome) := by
  cases request with
  | userData uid =>
      change Found (s.run (updateUserData.onDocument service.document)) ↔ _
      cases hdocument : service.document with
      | none =>
          refine iff_of_true (found_of_ends rfl) fun hstores => ?_
          simp [storesNames, hdocument] at hstores
      | some document =>
          rw [onDocument_eq, ← storeNames_ends document uid service hdocument]
          exact found_unwraps (ignores_storeNames document) (leaves_storeProfile document)
            (storeProfile_acts document)
  | signIn | loginDocument | createUser | setBasics | mergeInterests =>
      refine iff_of_true (found_of_ignores (ignores_closure service ?_)) fun hstores => ?_
      · intro uid h
        cases h
      · cases hstores

end StoreProfile

/-! ## Who is signed in -/

/-- The authentication service has the user that the last sign-in or sign-out has left. -/
def Known (s : Session) : Prop := s.signedIn = s.app.currentUser.isSome

theorem known_run {ρ : Type} {code : Callback App ρ Unit Unit} (hs : Known s)
    (hleaves : Leaves App.currentUser code) : Known (s.run code) := by
  unfold Known
  rw [show (s.run code).app.currentUser = s.app.currentUser from hleaves.exec s.app]
  exact hs

theorem known_react {code : Callback App AuthRequest Unit Unit} (hs : Known s)
    (hleaves : Leaves App.currentUser code) : Known (s.react code) :=
  known_run hs hleaves

theorem found_ignoring {code : Callback App AuthRequest Unit Unit} (hs : Known s)
    (hignores : IgnoresUser code) : Known (s.react code) ∧ (Found (s.react code) ↔ True) :=
  ⟨known_react hs (leaves_of_ignores hignores), iff_of_true (found_of_ignores hignores) trivial⟩

theorem known_currentUser {service : Service} {request : AuthRequest} (hs : Known s) :
    (s.signedIn || signsIn service request) =
      (service.currentUser request s.app.currentUser).isSome := by
  unfold Known at hs
  rw [hs]
  cases request with
  | signIn | createUser => exact (Bool.or_comm _ _).trans Option.isSome_or.symm
  | loginDocument | userData | setBasics | mergeInterests => exact Bool.or_false _

section Leaving

variable [Observers]

theorem leaves_closure (service : Service) (request : AuthRequest) :
    Leaves App.currentUser (Authentication.closure service request) := by
  cases request with
  | userData uid =>
      change Leaves App.currentUser (updateUserData.onDocument service.document)
      cases service.document with
      | none => exact leaves_pure
      | some document =>
          rw [onDocument_eq]
          exact leaves_bind (leaves_of_ignores (ignores_storeNames document)) fun _ =>
            leaves_bind leaves_forcedCurrentUser (leaves_storeProfile document)
  | signIn | loginDocument | createUser | setBasics | mergeInterests =>
      refine leaves_of_ignores (ignores_closure service fun uid h => ?_)
      cases h

theorem leaves_viewDidDisappear (interests : Option (List String)) :
    Leaves App.currentUser
      (EditUserInterestsViewController.viewDidDisappear interests) := by
  cases interests with
  | none => exact leaves_pure
  | some interests =>
      exact leaves_bind (leaves_store fun _ => rfl) fun _ =>
        leaves_bind leaves_forcedCurrentUser fun _ => leaves_send _

theorem leaves_details (firstName lastName : String) (country : Country) :
    Leaves App.currentUser
      (EditUserDetailsViewController.viewDidDisappear firstName lastName country) := by
  refine leaves_bind (fun _ => .read fun _ _ => trivial) fun currentUser => ?_
  cases currentUser with
  | none => exact leaves_pure
  | some user =>
      exact leaves_bind (fun _ => .forM fun _ _ => leaves_store (fun _ => rfl) _) fun _ =>
        leaves_send _

theorem details_returns {app : App} (hnone : app.currentUser = none) (firstName lastName : String)
    (country : Country) :
    ((EditUserDetailsViewController.viewDidDisappear firstName lastName country).exec app).1 =
      some () := by
  rw [EditUserDetailsViewController.viewDidDisappear, Callback.exec_apply, Callback.bind_apply,
    Callback.read_apply, hnone]
  rfl

theorem ignores_settings (isCountrySpecific : Bool) (language : String) :
    IgnoresUser (AppSettingsViewController.viewDidDisappear isCountrySpecific language) :=
  ignores_bind (ignores_store _ _) fun _ => ignores_store _ _

end Leaving

theorem leaves_getSavedNews : Leaves App.currentUser (Networking.getSavedNews : SavedCode) := by
  refine leaves_bind (fun _ => .read fun _ _ => trivial) fun currentUser => ?_
  cases currentUser with
  | none => exact leaves_pure
  | some user => exact leaves_send _

theorem signOut_ends [Observers] (ok : Bool) (app : App) :
    (Authentication.signOut (fun _ => pure ()) ok : Callback App AuthRequest Unit Unit).exec app =
      (some (), ⟨if ok then { app with
        currentUser := none
        defaults := UserRepository.removeUserInfo app.defaults } else app, [], []⟩) := by
  rw [Callback.exec_apply, Authentication.signOut_apply]
  cases ok <;> rfl

/-! ## Every unwrap finds its user -/

theorem known_signOut (hs : Known s) (ok : Bool) :
    let s' := { s with signedIn := s.signedIn && !ok }.react
      (s.observed (Authentication.signOut (fun _ => pure ()) ok))
    Known s' ∧ Found s' := by
  have hends := @signOut_ends s.observers ok s.app
  refine ⟨?_, found_of_ends (Option.isSome_of_mem (congrArg Prod.fst hends))⟩
  have huser := congrArg (fun r => r.2.store.currentUser.isSome) hends
  refine Eq.trans ?_ huser.symm
  cases ok with
  | true => exact Bool.and_false _
  | false => exact (Bool.and_true _).trans hs

theorem found_deliver (hs : Known s) (service : Service) (request : AuthRequest) :
    Known (s.deliver service request) ∧ (Found (s.deliver service request) ↔
      (storesNames s.observers s.app.defaults service request = true → s.signedIn = true)) := by
  have hknown : s.app.currentUser.isSome ↔ s.signedIn = true := by rw [hs]
  let answered : Session := { s with
    signedIn := s.signedIn || signsIn service request
    app := { s.app with currentUser := service.currentUser request s.app.currentUser } }
  refine ⟨known_react (s := answered) (known_currentUser hs)
    (@leaves_closure s.observers service request), ?_⟩
  refine Iff.trans (@found_closure s.observers service request answered) ?_
  cases request with
  | userData uid => exact forall_congr' fun _ => hknown
  | signIn | loginDocument | createUser | setBasics | mergeInterests =>
      exact iff_of_true (fun hstores => by cases hstores) fun hstores => by cases hstores

/-- What a step does to the user that is signed in, and whether it finds it. -/
theorem found_step {a : Action} (hs : Known s) (h : machine.step s a = some s') :
    Known s' ∧ (Found s' ↔ SignedIn s a) := by
  obtain ⟨hgoing, h⟩ := Option.ite_none_left_eq_some.mp h
  have hidle : Found s := fun under hunder => absurd (Option.isSome_of_mem hunder) hgoing
  have hknown : s.app.currentUser.isSome ↔ s.signedIn = true := by rw [hs]
  cases a with
  | bookmark shelf row saved =>
      have hfound := found_bookmark h
      obtain ⟨article, -, rfl⟩ := Option.map_eq_some_iff.mp h
      refine ⟨?_, hfound.trans hknown⟩
      split
      · exact known_run hs (leaves_bind leaves_forcedCurrentUser fun _ => leaves_send _)
      · exact known_run hs (leaves_bind leaves_forcedCurrentUser fun _ => leaves_send _)
  | signUpInterests interests =>
      obtain rfl := Option.some.inj h
      exact ⟨known_react hs (leaves_bind leaves_forcedCurrentUser fun _ => leaves_send _),
        found_sends.trans hknown⟩
  | closeInterests =>
      have hfound := found_closeInterests h
      rw [hknown] at hfound
      refine ⟨?_, hfound⟩
      simp only [Session.closeInterests] at h
      split at h
      · obtain rfl := Option.some.inj h
        exact known_run (s := { s with editor := none }) hs
          (@leaves_viewDidDisappear s.observers _)
      · cases h
  | closeDetails firstName lastName country =>
      obtain ⟨-, h⟩ := Option.ite_none_right_eq_some.mp h
      obtain rfl := Option.some.inj h
      have hleaves := @leaves_details s.observers firstName lastName country
      refine ⟨known_run (s := { s with editor := none }) hs hleaves, iff_of_true ?_ trivial⟩
      exact found_of_guarded (s := { s with editor := none }) hleaves fun hnone =>
        @details_returns s.observers _ hnone firstName lastName country
  | closeSettings isCountrySpecific language =>
      obtain ⟨-, h⟩ := Option.ite_none_right_eq_some.mp h
      obtain rfl := Option.some.inj h
      have hignores := @ignores_settings s.observers isCountrySpecific language
      exact ⟨known_run (s := { s with editor := none }) hs (leaves_of_ignores hignores),
        iff_of_true (found_of_ignores hignores) trivial⟩
  | getSavedNews =>
      obtain rfl := Option.some.inj h
      refine ⟨known_run hs leaves_getSavedNews, iff_of_true (found_of_ends ?_) trivial⟩
      rw [Callback.exec_apply, Networking.getSavedNews_apply]
      rfl
  | login email password =>
      obtain rfl := Option.some.inj h
      exact found_ignoring hs (ignores_send (AuthRequest.signIn email password))
  | signUpBasics firstName lastName email password country =>
      obtain rfl := Option.some.inj h
      exact found_ignoring hs
        (ignores_send (AuthRequest.createUser firstName lastName email password country))
  | expanded selectedInterests =>
      obtain ⟨-, h⟩ := Option.ite_none_right_eq_some.mp h
      obtain rfl := Option.some.inj h
      exact found_ignoring (s := { s with expanding := s.expanding - 1 }) hs
        (@ignores_store _ s.observers .interests (.strings selectedInterests))
  | signOut ok =>
      obtain rfl := Option.some.inj h
      exact ⟨(known_signOut hs ok).1, iff_of_true (known_signOut hs ok).2 trivial⟩
  | removeUserInfo =>
      obtain rfl := Option.some.inj h
      exact found_ignoring hs (@ignores_removeUserInfo _ s.observers)
  | load | openProfile | observe =>
      obtain rfl := Option.some.inj h
      exact ⟨hs, iff_of_true hidle trivial⟩
  | openEditor editor =>
      obtain ⟨-, h⟩ := Option.ite_none_right_eq_some.mp h
      cases editor <;> obtain rfl := Option.some.inj h <;> exact ⟨hs, iff_of_true hidle trivial⟩
  | toggleInterest interest =>
      simp only at h
      split at h
      · obtain rfl := Option.some.inj h
        exact ⟨hs, iff_of_true hidle trivial⟩
      · cases h
  | deliver i service =>
      obtain ⟨⟨request, rest⟩, hpick, rfl⟩ := Option.map_eq_some_iff.mp h
      simp only [SignedIn, hpick, Option.mem_some_iff, forall_eq']
      exact found_deliver (s := { s with inFlight := rest }) hs service request

end Steps

theorem launch_found (currentUser : Option User) (defaults : Defaults) :
    Known (Session.launch currentUser defaults) ∧ Found (Session.launch currentUser defaults) := by
  cases currentUser with
  | none => exact ⟨rfl, fun under hunder => by cases hunder⟩
  | some user => exact ⟨rfl, fun under hunder => by cases hunder⟩

/-- **Current user.** In every run from a launch as a guest or as a user, whatever is tapped on
whichever screen, with logins, sign-ups and sign-outs anywhere: no code traps for want of a user,
exactly as long as somebody has signed in before each save, each unsave, the first interests, the
end of an editor with interests that can be stored and the arrival of a document with names that
can be stored. -/
theorem currentUser_found {currentUser : Option User} {defaults : Defaults}
    {as : List Action} :
    machine.Always Found (Session.launch currentUser defaults) as ↔
      machine.Meets SignedIn (Session.launch currentUser defaults) as :=
  machine.always_iff_meets (I := Known) (fun hs _ h => (found_step hs h).1)
    (fun hs _ h => (found_step hs h).2) (launch_found currentUser defaults).1
    (launch_found currentUser defaults).2

def guestSavesCard : List Action :=
  [.load .flashCards [.titled "Story"], .bookmark .flashCards 0 false]

theorem currentUser_missing :
    ¬ ∀ (currentUser : Option User) (defaults : Defaults) (as : List Action),
      machine.Always Found (Session.launch currentUser defaults) as := by
  intro h
  let guest := Session.launch none fun _ => none
  have hends : (machine.run guest guestSavesCard).isSome := by decide +kernel
  have hmissing : ∀ s ∈ machine.run guest guestSavesCard, s.app.currentUser = none ∧
      ∃ under ∈ s.stopped, (under none).1 = none ∧ (under (some ⟨"uid", none⟩)).1 = some () := by
    decide +kernel
  refine machine.not_always_of_run hends (fun s hs hfound => ?_)
    (h none (fun _ => none) guestSavesCard)
  obtain ⟨hnone, under, hunder, htraps, hends⟩ := hmissing s hs
  rw [hfound under hunder hnone ⟨"uid", none⟩, htraps] at hends
  cases hends

end NewsFlash.Accounts.CurrentUser
