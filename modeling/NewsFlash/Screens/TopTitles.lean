import NewsFlash.Library.InFlight
import NewsFlash.Library.Machine
import NewsFlash.Models.Networking

/-!
# The country of the top titles

The flash cards show the top titles of the stored country, which the title of the screen
names. A request takes the country when it is issued, while an answer is stored whenever it
arrives. `InTime` says exactly which answers leave the screen with titles of the country
that it names.
-/

namespace NewsFlash.Screens.TopTitles

open NewsFlash.Library NewsFlash.Models NewsFlash.Models.Networking

/-! ## The screen -/

/-- `answered` are the answers that have arrived: the country that was asked for, with the
titles that the answer left. -/
structure Screen where
  app : App
  title : String := ""
  inFlight : List TopNewsRequest := []
  answered : List (String × List Article) := []

inductive Action where
  | reloadKolodaViewButtonPressed
  | store (country : Value)
  | deliver (i : Nat) (reply : DataReply)

def full (country : List (String × String)) : Option String := country.lookup "full"

def storedCountry (app : App) : Option (List (String × String)) :=
  (UserRepository.fetch .country app.defaults).bind Value.asDictionary

def countryCode (app : App) : String := ((storedCountry app).bind short).getD "bg"

def titleFor (app : App) : String := "Top Titles for " ++ ((storedCountry app).bind full).getD ""

namespace Screen

def topNews (s : Screen) : List Article := s.app.news.topNews

def updateNavigationBarTitle (s : Screen) : Screen := { s with title := titleFor s.app }

/-- All three completions of the screen store the answer, or nothing for a failure. -/
def onTopNews (news : Option (List Article)) : Callback App TopNewsRequest Unit Unit :=
  App.modifyNews fun shared => { shared with topNews := news.getD [] }

section Service

/-! `parses` is `URL(string:)`. -/

variable (parses : String → Bool)

def getTopNews (s : Screen) : Option Screen :=
  let code : Callback App TopNewsRequest Unit Unit := Networking.getLocalTopNews parses
  match code.exec s.app with
  | (none, _) => none
  | (some (), t) => some { s with app := t.store, inFlight := s.inFlight ++ t.issued }

def viewDidLoad (app : App) : Option Screen :=
  (({ app } : Screen).getTopNews parses).map updateNavigationBarTitle

def observeValue (s : Screen) : Option Screen :=
  if UserRepository.checkFor .country s.app.defaults then
    s.updateNavigationBarTitle.getTopNews parses
  else some s

def act (s : Screen) : Action → Option Screen
  | .reloadKolodaViewButtonPressed => s.getTopNews parses
  | .store country =>
      let defaults := UserRepository.store .country country s.app.defaults
      { s with app := { s.app with defaults } }.observeValue parses
  | .deliver i reply => (pick s.inFlight i).map fun (request, rest) =>
      let (_, t) := (onData onTopNews reply).exec s.app
      { s with
        app := t.store
        inFlight := rest
        answered := s.answered ++ [(request.country, t.store.news.topNews)] }

end Service

end Screen

def machine (parses : String → Bool) : Machine Screen Action where
  step := Screen.act parses

/-- The title names the stored country, and once every request has been answered the top
titles are an answer to a request for it. -/
def Named (s : Screen) : Prop :=
  s.title = titleFor s.app ∧
    (s.inFlight = [] → (countryCode s.app, s.topNews) ∈ s.answered)

/-- The answer to the only request in flight is one for the stored country, or brings what
such an answer has brought before. -/
def InTime (s : Screen) : Action → Prop
  | .deliver i reply => ∀ picked ∈ pick s.inFlight i, picked.2 = [] →
      picked.1.country = countryCode s.app ∨
        (countryCode s.app, reply.articles.getD []) ∈ s.answered
  | .reloadKolodaViewButtonPressed | .store _ => True

instance (s : Screen) : (a : Action) → Decidable (InTime s a)
  | .deliver _ _ => inferInstanceAs (Decidable (∀ _ ∈ _, _ → _ ∨ _))
  | .reloadKolodaViewButtonPressed | .store _ => inferInstanceAs (Decidable True)

/-! ## What one step does -/

section Steps

variable {parses : String → Bool} {s s' : Screen}

theorem getLocalTopNews_exec (app : App) :
    (Networking.getLocalTopNews parses : Callback App TopNewsRequest Unit Unit).exec app =
      if parses (TopNewsRequest.url ⟨countryCode app⟩) then
        (some (), ⟨app, [⟨countryCode app⟩], []⟩)
      else (none, ⟨app, [], []⟩) := by
  unfold Networking.getLocalTopNews
  simp only [Callback.exec_apply, Callback.bind_apply, App.fetch, Callback.read_apply]
  by_cases hparses : parses (TopNewsRequest.url ⟨countryCode app⟩) = true
  · rw [if_pos hparses]
    exact congrFun (if_pos hparses) _
  · rw [if_neg hparses]
    exact congrFun (if_neg hparses) _

theorem getTopNews_eq (h : s.getTopNews parses = some s') :
    s' = { s with inFlight := s.inFlight ++ [⟨countryCode s.app⟩] } := by
  unfold Screen.getTopNews at h
  simp only [getLocalTopNews_exec] at h
  by_cases hparses : parses (TopNewsRequest.url ⟨countryCode s.app⟩) = true
  · rw [if_pos hparses] at h
    exact (Option.some.inj h).symm
  · rw [if_neg hparses] at h
    cases h

theorem named_getTopNews (htitle : s.title = titleFor s.app)
    (h : s.getTopNews parses = some s') : Named s' := by
  obtain rfl := getTopNews_eq h
  refine ⟨htitle, fun hidle => ?_⟩
  exact absurd hidle (List.append_ne_nil_of_right_ne_nil _ (List.cons_ne_nil _ _))

theorem named_viewDidLoad {app : App} (h : Screen.viewDidLoad parses app = some s) : Named s := by
  obtain ⟨loaded, hload, rfl⟩ := Option.map_eq_some_iff.mp h
  obtain rfl := getTopNews_eq hload
  refine ⟨rfl, fun hidle => ?_⟩
  exact absurd hidle (List.cons_ne_nil _ _)

theorem named_store {country : Value} (h : s.act parses (.store country) = some s') :
    Named s' := by
  simp only [Screen.act, Screen.observeValue] at h
  have hstored : UserRepository.checkFor .country
      (UserRepository.store .country country s.app.defaults) = true := by
    simp [UserRepository.checkFor, UserRepository.store]
  rw [if_pos hstored] at h
  exact named_getTopNews rfl h

theorem deliver_eq_some {i : Nat} {reply : DataReply}
    (h : (machine parses).step s (.deliver i reply) = some s') :
    ∃ request rest, pick s.inFlight i = some (request, rest) ∧ s' = { s with
      app := { s.app with news := { s.app.news with topNews := reply.articles.getD [] } }
      inFlight := rest
      answered := s.answered ++ [(request.country, reply.articles.getD [])] } := by
  obtain ⟨⟨request, rest⟩, hpick, rfl⟩ := Option.map_eq_some_iff.mp h
  refine ⟨request, rest, hpick, ?_⟩
  rw [onData_eq]
  rfl

/-- A step from a screen that names its titles leads to one that does exactly when it is
in time. -/
theorem named_step {a : Action} (hnamed : Named s) (h : (machine parses).step s a = some s') :
    Named s' ↔ InTime s a := by
  cases a with
  | reloadKolodaViewButtonPressed => exact iff_of_true (named_getTopNews hnamed.1 h) trivial
  | store country => exact iff_of_true (named_store h) trivial
  | deliver i reply =>
      obtain ⟨request, rest, hpick, rfl⟩ := deliver_eq_some h
      simp only [InTime, hpick, Option.mem_some_iff, forall_eq']
      have hanswered : ((countryCode s.app, reply.articles.getD []) ∈
          s.answered ++ [(request.country, reply.articles.getD [])]) ↔
          request.country = countryCode s.app ∨
            (countryCode s.app, reply.articles.getD []) ∈ s.answered := by
        rw [List.mem_append, List.mem_singleton, Prod.mk.injEq, or_comm, eq_comm]
        simp
      refine Iff.trans ?_ (imp_congr_right fun _ => hanswered)
      exact and_iff_right hnamed.1

end Steps

/-! ## The titles are those of the named country -/

/-- **Top titles.** From the load of the screen, however often it is reloaded, the country is
changed and answers arrive: the title names the stored country in every state, and with every
request answered the top titles are an answer for it, exactly as long as every answer that
leaves nothing in flight is in time. -/
theorem topNews_named {parses : String → Bool} {app : App} {s₀ : Screen} {as : List Action}
    (hload : Screen.viewDidLoad parses app = some s₀) :
    (machine parses).Always Named s₀ as ↔ (machine parses).Meets InTime s₀ as :=
  (machine parses).always_iff_meets (I := fun _ => True) (fun _ _ _ => trivial)
    (fun _ hnamed h => named_step hnamed h) trivial (named_viewDidLoad hload)

def country (code name : String) : Value := .dictionary [("short", code), ("full", name)]

def found (title : String) : DataReply := ⟨some (.articles [.titled title]), false⟩

/-- The reload of the old country fails before the answer for the new one comes. -/
def answeredInTurn : List Action :=
  [.deliver 0 (found "bg"), .reloadKolodaViewButtonPressed, .store (country "us" "United States"),
    .deliver 0 ⟨none, true⟩, .deliver 0 (found "us")]

theorem topNews_named_answeredInTurn :
    ∃ s₀, Screen.viewDidLoad (fun _ => true) {} = some s₀ ∧
      (machine fun _ => true).Always Named s₀ answeredInTurn := by
  obtain ⟨s₀, hload⟩ : ∃ s₀, Screen.viewDidLoad (fun _ => true) {} = some s₀ := ⟨_, rfl⟩
  have hintime : ∀ s₀ ∈ Screen.viewDidLoad (fun _ => true) {},
      (machine fun _ => true).Meets InTime s₀ answeredInTurn := by decide +kernel
  exact ⟨s₀, hload, (topNews_named hload).mpr (hintime s₀ hload)⟩

/-- The answer for the old country comes after that for the new one. -/
def overtaken : List Action :=
  [.store (country "us" "United States"), .deliver 1 (found "us"), .deliver 0 (found "bg")]

theorem topNews_foreign :
    ¬ ∀ (parses : String → Bool) (app : App) (s₀ : Screen) (as : List Action),
      Screen.viewDidLoad parses app = some s₀ → (machine parses).Always Named s₀ as := by
  intro h
  obtain ⟨s₀, hload⟩ : ∃ s₀, Screen.viewDidLoad (fun _ => true) {} = some s₀ := ⟨_, rfl⟩
  have hlate : ∀ s₀ ∈ Screen.viewDidLoad (fun _ => true) {},
      ((machine fun _ => true).run s₀ overtaken).isSome ∧
        ∀ s ∈ (machine fun _ => true).run s₀ overtaken, s.inFlight = [] ∧
          (countryCode s.app, s.topNews) ∉ s.answered := by decide +kernel
  obtain ⟨hends, hforeign⟩ := hlate s₀ hload
  refine Machine.not_always_of_run _ hends (fun s hs hnamed => ?_)
    (h (fun _ => true) {} s₀ overtaken hload)
  exact (hforeign s hs).2 (hnamed.2 (hforeign s hs).1)

end NewsFlash.Screens.TopTitles
