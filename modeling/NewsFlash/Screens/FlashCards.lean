import NewsFlash.Screens.Deck
import NewsFlash.Screens.Handlers
import NewsFlash.Screens.TopTitles

/-!
# Taps on a flash card

A card shows the article that `viewForCardAt` read when the card was made, while a tap on the
card reads the top news at the index of the stack. An answer replaces the top news at once and
leaves it to the main queue to reload the stack. `Keeps` says exactly which steps leave the
card on top with the article that it shows; `Careful` says which events keep the whole stack so.
-/

namespace NewsFlash.Screens.FlashCards

open NewsFlash.Library NewsFlash.Models NewsFlash.Models.Networking
open NewsFlash.Screens.SearchTable (Fault)
open NewsFlash.Screens.Handlers (Handler Outcome)

/-! ## The screen -/

inductive Job where
  | reloadData | resetCurrentCardIndex | resetAndHide
deriving DecidableEq, Repr

/-- `completions` are those of the requests in flight, in the same order. A card of the stack is
known by the article that it was made from. -/
structure State where
  screen : TopTitles.Screen
  koloda : KolodaView Article := {}
  completions : List Job := []
  mainQueue : List Job := []
  reloadKolodaStackViewIsHidden : Bool := true

inductive Tap where
  | save | unsave | share | select
deriving DecidableEq, Repr

def Tap.handler : Tap → Handler
  | save => .bookmark false
  | unsave => .bookmark true
  | share => .share
  | select => .select

/-- `tap` is one on the card on top, and `mainQueue` runs the job that was queued first. -/
inductive Action where
  | swipe
  | bringBackCard (isAnimating : Bool)
  | tap (tap : Tap)
  | reloadKolodaViewButtonPressed
  | storeCountry (country : Value)
  | deliver (i : Nat) (reply : DataReply)
  | mainQueue
  | didReceiveMemoryWarning

def dataSource (news : News) : KolodaViewDataSource Article where
  kolodaNumberOfCards := Handlers.FlashCardsViewController.kolodaNumberOfCards news
  viewForCardAt index := news.topNews[index]?

namespace State

def news (s : State) : News := s.screen.app.news

def withNews (s : State) (news : News) : State :=
  { s with screen := { s.screen with app := { s.screen.app with news } } }

/-- The screen after an action of its requests; the requests that it issues get `completion`. -/
def asked (completion : Job) (s : State) (screen : TopTitles.Screen) : State :=
  { s with
    screen
    completions := s.completions ++
      (screen.inFlight.drop s.screen.inFlight.length).map fun _ => completion }

def withKoloda (s : State) (koloda : KolodaView Article) : State := { s with koloda }

/-- The stack has been swiped: without a card left, the button to reload appears. -/
def swiped (s : State) (koloda : KolodaView Article) : State :=
  { s with
    koloda
    reloadKolodaStackViewIsHidden :=
      s.reloadKolodaStackViewIsHidden && !koloda.visibleCards.isEmpty }

def perform (s : State) : Job → Option State
  | .reloadData => (s.koloda.reloadData (dataSource s.news)).map s.withKoloda
  | .resetCurrentCardIndex =>
      (s.koloda.resetCurrentCardIndex (dataSource s.news)).map s.withKoloda
  | .resetAndHide =>
      (s.koloda.resetCurrentCardIndex (dataSource s.news)).map fun koloda =>
        { s with koloda, reloadKolodaStackViewIsHidden := true }

section Service

/-! `parses` is `URL(string:)`. -/

variable (parses : String → Bool)

/-- The stack is set up when it gets its data source. -/
def viewDidLoad (app : App) : Option State := do
  let koloda ← KolodaView.setupDeck (dataSource app.news) {}
  let screen ← TopTitles.Screen.viewDidLoad parses app
  some { screen, koloda, completions := screen.inFlight.map fun _ => .reloadData }

def tap (s : State) (tap : Tap) : Except Fault Outcome :=
  Handlers.Screen.flashCards.handle parses s.news true s.koloda.currentCardIndex tap.handler

def step (s : State) : Action → Option State
  | .swipe => (s.koloda.swipedAction (dataSource s.news)).map s.swiped
  | .bringBackCard isAnimating =>
      (s.koloda.revertAction (dataSource s.news) isAnimating).map s.withKoloda
  | .tap tap => do
      let _ ← s.koloda.front
      let _ ← (s.tap parses tap).toOption
      some s
  | .reloadKolodaViewButtonPressed =>
      if s.reloadKolodaStackViewIsHidden then none
      else (s.screen.act parses .reloadKolodaViewButtonPressed).map (s.asked .resetAndHide)
  | .storeCountry country =>
      (s.screen.act parses (.store country)).map (s.asked .resetCurrentCardIndex)
  | .deliver i reply => do
      let (completion, completions) ← pick s.completions i
      let screen ← s.screen.act parses (.deliver i reply)
      some { s with screen, completions, mainQueue := s.mainQueue ++ [completion] }
  | .mainQueue =>
      match s.mainQueue with
      | [] => none
      | job :: mainQueue => { s with mainQueue }.perform job
  | .didReceiveMemoryWarning => some (s.withNews { s.news with topNews := [] })

end Service

end State

def machine (parses : String → Bool) : Machine State Action where
  step := State.step parses

/-! ## Taps -/

section Taps

variable (parses : String → Bool)

def Tap.outcome (article : Article) : Tap → Outcome
  | save => .saved article
  | unsave => .unsaved article.key
  | share => .shared (article.url.filter parses)
  | select => .opened ((some article.key).filter parses)

variable {β : Type} (view : Article → β)

/-- All taps on the card on top are about one article, which looks like the one that the card
shows; the look is the title, or the whole article. -/
def ActsOnShown (s : State) : Prop :=
  ∀ shown ∈ s.koloda.front, ∃ article, view article = view shown ∧
    ∀ tap, s.tap parses tap = .ok (tap.outcome parses article)

end Taps

/-! ## When a step keeps the card on top -/

section Guard

variable {β : Type} (view : Article → β)

/-- The article at the index looks like the one that is shown. -/
def InPlace (articles : List Article) (index : Nat) (shown : Option Article) : Prop :=
  ∀ article ∈ shown, articles[index]?.map view = some (view article)

/-- New top news have the article of the card on top in its place, a memory warning finds no
card on screen, and the card that a swipe brings to the top has its article in place. -/
def Keeps (s : State) : Action → Prop
  | .deliver _ reply =>
      InPlace view (reply.articles.getD []) s.koloda.currentCardIndex s.koloda.front
  | .didReceiveMemoryWarning => s.koloda.front = none
  | .swipe => InPlace view s.news.topNews (s.koloda.currentCardIndex + 1)
      (s.koloda.nextCard (dataSource s.news))
  | .bringBackCard _ | .tap _ | .reloadKolodaViewButtonPressed | .storeCountry _ | .mainQueue =>
      True

instance [DecidableEq β] (articles : List Article) (index : Nat) (shown : Option Article) :
    Decidable (InPlace view articles index shown) := inferInstanceAs (Decidable (∀ _ ∈ _, _ = _))

instance [DecidableEq β] (s : State) : (a : Action) → Decidable (Keeps view s a)
  | .deliver _ _ | .swipe => inferInstanceAs (Decidable (InPlace _ _ _ _))
  | .didReceiveMemoryWarning => inferInstanceAs (Decidable (_ = _))
  | .bringBackCard _ | .tap _ | .reloadKolodaViewButtonPressed | .storeCountry _ | .mainQueue =>
      inferInstanceAs (Decidable True)

end Guard

/-- New top news come while no card is on the stack, or are those that it shows; a memory warning
finds no card, and no card is brought back to an empty stack before the jobs have run. -/
def Careful (s : State) : Action → Prop
  | .deliver _ reply =>
      s.koloda.visibleCards = [] ∨ reply.articles.getD [] = s.news.topNews
  | .didReceiveMemoryWarning => s.koloda.visibleCards = []
  | .bringBackCard _ => s.koloda.visibleCards = [] → s.mainQueue = []
  | .swipe | .tap _ | .reloadKolodaViewButtonPressed | .storeCountry _ | .mainQueue => True

instance (s : State) : (a : Action) → Decidable (Careful s a)
  | .deliver _ _ => inferInstanceAs (Decidable (_ ∨ _))
  | .didReceiveMemoryWarning => inferInstanceAs (Decidable (_ = _))
  | .bringBackCard _ => inferInstanceAs (Decidable (_ → _))
  | .swipe | .tap _ | .reloadKolodaViewButtonPressed | .storeCountry _ | .mainQueue =>
      inferInstanceAs (Decidable True)

section Steps

variable {parses : String → Bool} {β : Type} {view : Article → β} {s s' : State}

theorem tap_of_getElem? {article : Article} (tap : Tap)
    (h : s.news.topNews[s.koloda.currentCardIndex]? = some article) :
    s.tap parses tap = .ok (tap.outcome parses article) := by
  have hsubscript := Handlers.subscript_some h
  cases tap with
  | save =>
      change ((Handlers.subscript _ _).map Outcome.saved) = _
      rw [hsubscript]
      rfl
  | unsave | share | select =>
      change ((Handlers.subscript _ _ >>= _).map _) = _
      rw [hsubscript]
      rfl

theorem tap_eq {tap : Tap} (h : (machine parses).step s (.tap tap) = some s') : s' = s := by
  obtain ⟨card, -, h⟩ := Option.bind_eq_some_iff.mp h
  obtain ⟨outcome, -, h⟩ := Option.bind_eq_some_iff.mp h
  exact (Option.some.inj h).symm

theorem getElem?_of_tap_save {article : Article}
    (h : s.tap parses .save = .ok (.saved article)) :
    s.news.topNews[s.koloda.currentCardIndex]? = some article := by
  change (Handlers.subscript s.news.topNews s.koloda.currentCardIndex).map Outcome.saved = _ at h
  unfold Handlers.subscript at h
  cases harticle : s.news.topNews[s.koloda.currentCardIndex]? with
  | none =>
      rw [harticle] at h
      cases h
  | some other =>
      rw [harticle] at h
      cases h
      rfl

/-- Taps are about the shown article exactly where it is in its place. -/
theorem actsOnShown_iff : ActsOnShown parses view s ↔
    InPlace view s.news.topNews s.koloda.currentCardIndex s.koloda.front := by
  constructor
  · intro h shown hshown
    obtain ⟨article, hview, htap⟩ := h shown hshown
    rw [getElem?_of_tap_save (htap .save), Option.map_some, hview]
  · intro h shown hshown
    obtain ⟨article, harticle, hview⟩ := Option.map_eq_some_iff.mp (h shown hshown)
    exact ⟨article, hview, fun tap => tap_of_getElem? tap harticle⟩

theorem inPlace_none (articles : List Article) (index : Nat) :
    InPlace view articles index none := by
  intro article harticle
  cases harticle

theorem inPlace_of_fresh {news : News} {koloda : KolodaView Article}
    (h : KolodaView.Fresh (dataSource news) koloda) :
    InPlace view news.topNews koloda.currentCardIndex koloda.front := by
  intro article harticle
  have hfresh : news.topNews[koloda.currentCardIndex]? = some article := h article harticle
  rw [hfresh, Option.map_some]

theorem inPlace_nil {index : Nat} {shown : Option Article} :
    InPlace view [] index shown ↔ shown = none := by
  constructor
  · intro h
    cases shown with
    | none => rfl
    | some article => cases h article rfl
  · rintro rfl
    exact inPlace_none [] index

/-- A job makes the card on top again, or leaves it there. -/
theorem perform_front {job : Job} (h : s.perform job = some s') :
    s'.news = s.news ∧ (KolodaView.Fresh (dataSource s.news) s'.koloda ∨
      (s'.koloda.front = s.koloda.front ∧
        s'.koloda.currentCardIndex = s.koloda.currentCardIndex)) := by
  cases job with
  | reloadData =>
      obtain ⟨koloda, hreload, rfl⟩ := Option.map_eq_some_iff.mp h
      exact ⟨rfl, KolodaView.reloadData_front hreload⟩
  | resetCurrentCardIndex | resetAndHide =>
      obtain ⟨koloda, hreset, rfl⟩ := Option.map_eq_some_iff.mp h
      exact ⟨rfl, Or.inl (KolodaView.resetCurrentCardIndex_fresh hreset)⟩

theorem ask_topNews {screen screen' : TopTitles.Screen} {a : TopTitles.Action}
    (hask : ∀ i reply, a ≠ .deliver i reply)
    (h : screen.act parses a = some screen') : screen'.topNews = screen.topNews := by
  cases a with
  | reloadKolodaViewButtonPressed =>
      obtain rfl := TopTitles.getTopNews_eq h
      rfl
  | store country =>
      simp only [TopTitles.Screen.act, TopTitles.Screen.observeValue] at h
      split at h
      · obtain rfl := TopTitles.getTopNews_eq h
        rfl
      · obtain rfl := Option.some.inj h
        rfl
  | deliver i reply => exact absurd rfl (hask i reply)

theorem inPlace_asked {completion : Job} {screen : TopTitles.Screen} {a : TopTitles.Action}
    (hask : ∀ i reply, a ≠ .deliver i reply) (h : s.screen.act parses a = some screen)
    (hplace : InPlace view s.news.topNews s.koloda.currentCardIndex s.koloda.front) :
    InPlace view (s.asked completion screen).news.topNews
      (s.asked completion screen).koloda.currentCardIndex
      (s.asked completion screen).koloda.front := by
  have htopNews : (s.asked completion screen).news.topNews = s.news.topNews := ask_topNews hask h
  rw [htopNews]
  exact hplace

theorem deliver_topNews {i : Nat} {reply : DataReply}
    (h : (machine parses).step s (.deliver i reply) = some s') :
    s'.news.topNews = reply.articles.getD [] ∧ s'.koloda = s.koloda := by
  obtain ⟨⟨completion, completions⟩, -, h⟩ := Option.bind_eq_some_iff.mp h
  obtain ⟨screen, hdeliver, h⟩ := Option.bind_eq_some_iff.mp h
  obtain rfl := Option.some.inj h
  have hscreen : (TopTitles.machine parses).step s.screen (.deliver i reply) = some screen :=
    hdeliver
  obtain ⟨request, rest, -, rfl⟩ := TopTitles.deliver_eq_some hscreen
  exact ⟨rfl, rfl⟩

/-- From a state whose taps are about the shown article, a step leads to another one exactly
when it keeps the card on top. -/
theorem actsOnShown_step {a : Action} (hacts : ActsOnShown parses view s)
    (h : (machine parses).step s a = some s') :
    ActsOnShown parses view s' ↔ Keeps view s a := by
  rw [actsOnShown_iff] at hacts ⊢
  cases a with
  | swipe =>
      obtain ⟨koloda, hswipe, rfl⟩ := Option.map_eq_some_iff.mp h
      obtain ⟨hfront, hindex⟩ := KolodaView.swipedAction_front hswipe
      change InPlace view s.news.topNews koloda.currentCardIndex koloda.front ↔ _
      rw [hfront, hindex]
      exact Iff.rfl
  | bringBackCard isAnimating =>
      obtain ⟨koloda, hrevert, rfl⟩ := Option.map_eq_some_iff.mp h
      refine iff_of_true ?_ trivial
      rcases KolodaView.revertAction_front hrevert with hfresh | rfl
      · exact inPlace_of_fresh hfresh
      · exact hacts
  | tap tap =>
      obtain rfl := tap_eq h
      exact iff_of_true hacts trivial
  | reloadKolodaViewButtonPressed =>
      change (if s.reloadKolodaStackViewIsHidden then none else _) = some s' at h
      split at h
      · cases h
      · obtain ⟨screen, hask, rfl⟩ := Option.map_eq_some_iff.mp h
        exact iff_of_true (inPlace_asked (fun _ _ => TopTitles.Action.noConfusion) hask hacts) trivial
  | storeCountry country =>
      obtain ⟨screen, hask, rfl⟩ := Option.map_eq_some_iff.mp h
      exact iff_of_true (inPlace_asked (fun _ _ => TopTitles.Action.noConfusion) hask hacts) trivial
  | deliver i reply =>
      obtain ⟨htopNews, hkoloda⟩ := deliver_topNews h
      rw [htopNews, hkoloda]
      exact Iff.rfl
  | mainQueue =>
      refine iff_of_true ?_ trivial
      change (match s.mainQueue with | [] => none | job :: mainQueue => _) = some s' at h
      split at h
      · cases h
      · obtain ⟨hnews, hfresh | ⟨hfront, hindex⟩⟩ := perform_front h
        · rw [hnews]
          exact inPlace_of_fresh hfresh
        · rw [hnews, hfront, hindex]
          exact hacts
  | didReceiveMemoryWarning =>
      obtain rfl := Option.some.inj h
      exact inPlace_nil

/-! ## Careful events -/

/-- The stack shows the top news, or it is empty and a job waits. -/
def Tidy (s : State) : Prop :=
  (s.koloda.visibleCards = [] ∧ s.mainQueue ≠ []) ∨ Deck.Shows s.news.topNews s.koloda

theorem Tidy.actsOnShown (h : Tidy s) : ActsOnShown parses view s := by
  rw [actsOnShown_iff]
  intro shown hshown
  rcases h with ⟨hempty, -⟩ | hshows
  · rw [KolodaView.front, hempty] at hshown
    cases hshown
  · rw [hshows.front] at hshown
    rw [show s.news.topNews[s.koloda.currentCardIndex]? = some shown from hshown, Option.map_some]

theorem Tidy.shows (h : Tidy s) (hcards : s.koloda.visibleCards = [] → s.mainQueue = []) :
    Deck.Shows s.news.topNews s.koloda :=
  h.resolve_left fun hempty => hempty.2 (hcards hempty.1)

theorem perform_shows {job : Job}
    (hstack : s.koloda.visibleCards = [] ∨ Deck.Shows s.news.topNews s.koloda)
    (h : s.perform job = some s') : Deck.Shows s'.news.topNews s'.koloda := by
  cases job with
  | reloadData =>
      obtain ⟨koloda, hreload, rfl⟩ := Option.map_eq_some_iff.mp h
      exact Deck.reloadData_shows hstack hreload
  | resetCurrentCardIndex | resetAndHide =>
      obtain ⟨koloda, hreset, rfl⟩ := Option.map_eq_some_iff.mp h
      exact (Deck.resetCurrentCardIndex_deals hreset).toShows

theorem step_mainQueue (h : (machine parses).step s .mainQueue = some s') :
    ∃ job mainQueue, s.mainQueue = job :: mainQueue ∧
      { s with mainQueue }.perform job = some s' := by
  cases hjobs : s.mainQueue with
  | nil =>
      simp only [machine, State.step, hjobs] at h
      cases h
  | cons job mainQueue =>
      simp only [machine, State.step, hjobs] at h
      exact ⟨job, mainQueue, rfl, h⟩

theorem tidy_asked {completion : Job} {screen : TopTitles.Screen} {a : TopTitles.Action}
    (hask : ∀ i reply, a ≠ .deliver i reply) (h : s.screen.act parses a = some screen)
    (htidy : Tidy s) : Tidy (s.asked completion screen) := by
  have htopNews : (s.asked completion screen).news.topNews = s.news.topNews := ask_topNews hask h
  unfold Tidy
  rw [htopNews]
  exact htidy

theorem deliver_mainQueue {i : Nat} {reply : DataReply}
    (h : (machine parses).step s (.deliver i reply) = some s') : s'.mainQueue ≠ [] := by
  obtain ⟨⟨completion, completions⟩, -, h⟩ := Option.bind_eq_some_iff.mp h
  obtain ⟨screen, -, h⟩ := Option.bind_eq_some_iff.mp h
  obtain rfl := Option.some.inj h
  exact List.append_ne_nil_of_right_ne_nil _ (List.cons_ne_nil _ _)

theorem tidy_step {a : Action} (htidy : Tidy s) (hcareful : Careful s a)
    (h : (machine parses).step s a = some s') : Tidy s' := by
  cases a with
  | swipe =>
      obtain ⟨koloda, hswipe, rfl⟩ := Option.map_eq_some_iff.mp h
      -- a card is swiped away, so the stack is not empty
      have hcards : s.koloda.visibleCards ≠ [] := by
        intro hempty
        simp only [KolodaView.swipedAction, hempty] at hswipe
        cases hswipe
      have hshows := htidy.shows fun hempty => absurd hempty hcards
      exact Or.inr ((hshows.deals hcards).swipedAction hswipe).toShows
  | bringBackCard isAnimating =>
      obtain ⟨koloda, hrevert, rfl⟩ := Option.map_eq_some_iff.mp h
      exact Or.inr ((htidy.shows hcareful).revertAction hrevert)
  | tap tap =>
      obtain rfl := tap_eq h
      exact htidy
  | reloadKolodaViewButtonPressed =>
      change (if s.reloadKolodaStackViewIsHidden then none else _) = some s' at h
      split at h
      · cases h
      · obtain ⟨screen, hask, rfl⟩ := Option.map_eq_some_iff.mp h
        exact tidy_asked (fun _ _ => TopTitles.Action.noConfusion) hask htidy
  | storeCountry country =>
      obtain ⟨screen, hask, rfl⟩ := Option.map_eq_some_iff.mp h
      exact tidy_asked (fun _ _ => TopTitles.Action.noConfusion) hask htidy
  | deliver i reply =>
      have hqueue := deliver_mainQueue h
      obtain ⟨htopNews, hkoloda⟩ := deliver_topNews h
      unfold Tidy
      rw [htopNews, hkoloda]
      rcases hcareful with hempty | hsame
      · exact Or.inl ⟨hempty, hqueue⟩
      · rw [hsame]
        exact htidy.imp (fun hempty => ⟨hempty.1, hqueue⟩) id
  | mainQueue =>
      obtain ⟨job, mainQueue, -, hperform⟩ := step_mainQueue h
      exact Or.inr (perform_shows (s := { s with mainQueue }) (htidy.imp And.left id) hperform)
  | didReceiveMemoryWarning =>
      obtain rfl := Option.some.inj h
      refine Or.inr ⟨?_, fun hne => absurd rfl hne⟩
      exact hcareful.trans (Window.window_eq_nil (Nat.zero_le _)).symm

theorem viewDidLoad_eq {app : App} (h : State.viewDidLoad parses app = some s) :
    s.mainQueue = [] ∧ s.news.topNews = app.news.topNews ∧
      s.koloda = (Deck.Cursor.start app.news.topNews).deck ∧
      s.reloadKolodaStackViewIsHidden = true := by
  obtain ⟨koloda, hsetup, h⟩ := Option.bind_eq_some_iff.mp h
  obtain ⟨screen, hload, h⟩ := Option.bind_eq_some_iff.mp h
  obtain rfl := Option.some.inj h
  obtain ⟨loaded, hask, rfl⟩ := Option.map_eq_some_iff.mp hload
  obtain rfl := TopTitles.getTopNews_eq hask
  refine ⟨rfl, rfl, ?_, rfl⟩
  have hdeck : KolodaView.setupDeck (Deck.ofList app.news.topNews) {} =
      some (Deck.Cursor.start app.news.topNews).deck := Deck.setupDeck_ofList rfl (Nat.zero_le _)
  exact Option.some.inj (hsetup.symm.trans hdeck)

theorem tidy_viewDidLoad {app : App} (h : State.viewDidLoad parses app = some s) : Tidy s := by
  obtain ⟨-, hnews, hkoloda, -⟩ := viewDidLoad_eq h
  unfold Tidy
  rw [hnews, hkoloda]
  exact Or.inr (Deck.deals_deck _).toShows

end Steps

/-! ## Taps are about the shown article -/

/-- **Flash cards.** From the load of the screen, over swipes, reverts, taps, reloads, changes of
the country, answers, jobs of the main queue and memory warnings in any order: all taps on the card
on top are about the article that it shows, in every state, exactly as long as every step keeps
the card on top; careful events do. -/
theorem taps_actOnShown {parses : String → Bool} {β : Type} {view : Article → β} {app : App}
    {s₀ : State} {as : List Action} (hload : State.viewDidLoad parses app = some s₀) :
    ((machine parses).Always (ActsOnShown parses view) s₀ as ↔
      (machine parses).Meets (Keeps view) s₀ as) ∧
    ((machine parses).Meets Careful s₀ as →
      (machine parses).Always (ActsOnShown parses view) s₀ as) := by
  have htidy := tidy_viewDidLoad hload
  constructor
  · exact (machine parses).always_iff_meets (I := fun _ => True) (fun _ _ _ => trivial)
      (fun _ hacts h => actsOnShown_step hacts h) trivial htidy.actsOnShown
  · exact (machine parses).always_of_meets tidy_step Tidy.actsOnShown htidy

/-- Two titles arrive, the first card is swiped away and brought back, and its article is
shared. -/
def broughtBack : List Action :=
  [.deliver 0 ⟨some (.articles [.titled "first", .titled "second"]), false⟩, .mainQueue, .swipe,
    .bringBackCard true, .bringBackCard false, .tap .share]

theorem taps_actOnShown_broughtBack :
    ∃ s₀, State.viewDidLoad (fun _ => true) {} = some s₀ ∧
      (machine fun _ => true).Always (ActsOnShown (fun _ => true) Article.title) s₀
        broughtBack := by
  obtain ⟨s₀, hload⟩ : ∃ s₀, State.viewDidLoad (fun _ => true) {} = some s₀ := ⟨_, rfl⟩
  have hcareful : ∀ s₀ ∈ State.viewDidLoad (fun _ => true) {},
      (machine fun _ => true).Meets Careful s₀ broughtBack := by decide +kernel
  exact ⟨s₀, hload, (taps_actOnShown hload).2 (hcareful s₀ hload)⟩

/-- The country is changed while a card is on screen, and the answer is not yet shown. -/
def replaced : List Action :=
  [.deliver 0 (TopTitles.found "Bulgarian"), .mainQueue,
    .storeCountry (TopTitles.country "us" "United States"),
    .deliver 0 (TopTitles.found "American")]

/-- The card shows an article, and a tap on it saves another one. -/
theorem taps_actOnReplaced :
    ¬ ∀ (parses : String → Bool) (app : App) (s₀ : State) (as : List Action),
      State.viewDidLoad parses app = some s₀ →
        (machine parses).Always (ActsOnShown parses Article.title) s₀ as := by
  intro h
  obtain ⟨s₀, hload⟩ : ∃ s₀, State.viewDidLoad (fun _ => true) {} = some s₀ := ⟨_, rfl⟩
  have hreplaced : ∀ s₀ ∈ State.viewDidLoad (fun _ => true) {},
      ((machine fun _ => true).run s₀ replaced).isSome ∧
        ∀ s ∈ (machine fun _ => true).run s₀ replaced,
          s.koloda.front = some (.titled "Bulgarian") ∧
            s.news.topNews[s.koloda.currentCardIndex]? = some (.titled "American") := by
    decide +kernel
  obtain ⟨hends, hshown⟩ := hreplaced s₀ hload
  refine Machine.not_always_of_run _ hends (fun s hs hacts => ?_)
    (h (fun _ => true) {} s₀ replaced hload)
  obtain ⟨hfront, harticle⟩ := hshown s hs
  have hplace := actsOnShown_iff.mp hacts _ hfront
  rw [harticle] at hplace
  exact absurd (Option.some.inj hplace) (by decide)

end NewsFlash.Screens.FlashCards
