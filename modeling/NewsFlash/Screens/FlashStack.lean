import NewsFlash.Screens.FlashCards

/-!
# The stack of the news screen

The stack of flash cards is behind the top news while a job of the main queue waits. Whenever none
does, it is the stack that the cursor shows, or it has run out and can be reloaded.
-/

namespace NewsFlash.Screens

open NewsFlash.Library NewsFlash.Models

namespace FlashCards

open NewsFlash.Screens.Deck

/-! ## The stack of the news screen -/

section Settled

variable {parses : String → Bool} {s s' : State}

/-- While no job waits, the stack shows the top news, and neither bringing a card back nor
swiping the card on top or tapping it traps. -/
def Settled (parses : String → Bool) (s : State) : Prop :=
  s.mainQueue = [] → Deals s.news.topNews s.koloda ∧
    (∀ isAnimating, (s.step parses (.bringBackCard isAnimating)).isSome) ∧
    (s.koloda.visibleCards ≠ [] → (s.step parses .swipe).isSome ∧
      ∀ tap, (s.step parses (.tap tap)).isSome)

/-- No memory warning drops news that are shown, and a plain reload is not the last job to run
once a card has been swiped away. -/
def Undisturbed (s : State) : Action → Prop
  | .didReceiveMemoryWarning => s.mainQueue ≠ [] ∨ s.news.topNews = []
  | .mainQueue => s.mainQueue = [.reloadData] →
      s.koloda.currentCardIndex = 0 ∨ s.news.topNews = []
  | .swipe | .bringBackCard _ | .tap _ | .reloadKolodaViewButtonPressed | .storeCountry _
  | .deliver _ _ => True

instance (s : State) : (a : Action) → Decidable (Undisturbed s a)
  | .didReceiveMemoryWarning => inferInstanceAs (Decidable (_ ∨ _))
  | .mainQueue => inferInstanceAs (Decidable (_ → _))
  | .swipe | .bringBackCard _ | .tap _ | .reloadKolodaViewButtonPressed | .storeCountry _
  | .deliver _ _ => inferInstanceAs (Decidable True)

def Dealt (s : State) : Prop := s.mainQueue = [] → Deals s.news.topNews s.koloda

theorem Dealt.settled (h : Dealt s) : Settled parses s := by
  intro hqueue
  have hdeals := h hqueue
  refine ⟨hdeals, fun isAnimating => ?_, fun hcards => ⟨?_, fun tap => ?_⟩⟩
  · obtain ⟨koloda, hrevert, -⟩ := hdeals.revertAction isAnimating
    exact Option.isSome_map.trans (Option.isSome_iff_exists.mpr ⟨koloda, hrevert⟩)
  · exact Option.isSome_map.trans (hdeals.swipedAction_isSome hcards)
  · obtain ⟨card, hcard⟩ : ∃ card, s.koloda.front = some card :=
      Option.isSome_iff_exists.mp (List.isSome_head?.mpr hcards)
    have harticle := hdeals.toShows.front.symm.trans hcard
    simp only [State.step, hcard, tap_of_getElem? tap harticle]
    rfl

/-- The last job leaves a stack that shows the top news. -/
theorem perform_deals {job : Job}
    (hjob : job = .reloadData → s.koloda.currentCardIndex = 0 ∨ s.news.topNews = [])
    (h : s.perform job = some s') : Deals s'.news.topNews s'.koloda := by
  cases job with
  | reloadData =>
      obtain ⟨koloda, hreload, rfl⟩ := Option.map_eq_some_iff.mp h
      exact reloadData_deals (hjob rfl) hreload
  | resetCurrentCardIndex | resetAndHide =>
      obtain ⟨koloda, hreset, rfl⟩ := Option.map_eq_some_iff.mp h
      exact resetCurrentCardIndex_deals hreset

theorem perform_mainQueue {job : Job} (h : s.perform job = some s') :
    s'.mainQueue = s.mainQueue := by
  cases job with
  | reloadData | resetCurrentCardIndex | resetAndHide =>
      obtain ⟨koloda, -, rfl⟩ := Option.map_eq_some_iff.mp h
      rfl

theorem asked_dealt {completion : Job} {screen : TopTitles.Screen} {a : TopTitles.Action}
    (hask : ∀ i reply, a ≠ .deliver i reply) (h : s.screen.act parses a = some screen)
    (hdealt : Dealt s) : Dealt (s.asked completion screen) := by
  intro hqueue
  have htopNews : (s.asked completion screen).news.topNews = s.news.topNews := ask_topNews hask h
  rw [htopNews]
  exact hdealt hqueue

theorem dealt_step {a : Action} (hdealt : Dealt s) (hguard : Undisturbed s a)
    (h : (machine parses).step s a = some s') : Dealt s' := by
  cases a with
  | swipe =>
      obtain ⟨koloda, hswipe, rfl⟩ := Option.map_eq_some_iff.mp h
      intro hqueue
      exact (hdealt hqueue).swipedAction hswipe
  | bringBackCard isAnimating =>
      obtain ⟨koloda, hrevert, rfl⟩ := Option.map_eq_some_iff.mp h
      intro hqueue
      obtain ⟨koloda', hrevert', hdeals⟩ := (hdealt hqueue).revertAction isAnimating
      obtain rfl := Option.some.inj (hrevert.symm.trans hrevert')
      exact hdeals
  | tap tap =>
      obtain rfl := tap_eq h
      exact hdealt
  | reloadKolodaViewButtonPressed =>
      change (if s.reloadKolodaStackViewIsHidden then none else _) = some s' at h
      split at h
      · cases h
      · obtain ⟨screen, hask, rfl⟩ := Option.map_eq_some_iff.mp h
        exact asked_dealt (fun _ _ => TopTitles.Action.noConfusion) hask hdealt
  | storeCountry country =>
      obtain ⟨screen, hask, rfl⟩ := Option.map_eq_some_iff.mp h
      exact asked_dealt (fun _ _ => TopTitles.Action.noConfusion) hask hdealt
  | deliver i reply => exact fun hqueue => absurd hqueue (deliver_mainQueue h)
  | mainQueue =>
      obtain ⟨job, mainQueue, hjobs, hperform⟩ := step_mainQueue h
      intro hqueue
      rw [perform_mainQueue hperform] at hqueue
      refine perform_deals (s := { s with mainQueue }) (fun hjob => hguard ?_) hperform
      rw [hjobs, hjob, show mainQueue = [] from hqueue]
  | didReceiveMemoryWarning =>
      obtain rfl := Option.some.inj h
      intro hqueue
      have hnews : s.news.topNews = [] := hguard.resolve_left fun hne => hne hqueue
      have hdeals := hdealt hqueue
      rw [hnews] at hdeals
      exact hdeals

/-- **The stack settles.** From the load of the screen, over swipes, reverts, reloads, changes of
the country, answers in any order and jobs of the main queue: whenever no job waits, the stack
shows the top news from its index on and its actions do not trap, as long as no memory warning
drops news that are shown and no plain reload comes last after a swipe. -/
theorem stack_settles {app : App} {s₀ : State} {as : List Action}
    (hload : State.viewDidLoad parses app = some s₀)
    (hsteps : (machine parses).Meets Undisturbed s₀ as) :
    (machine parses).Always (Settled parses) s₀ as := by
  refine (machine parses).always_of_meets dealt_step Dealt.settled ?_ hsteps
  obtain ⟨-, hnews, hkoloda, -⟩ := viewDidLoad_eq hload
  intro _
  rw [hnews, hkoloda]
  exact deals_deck _

/-- Titles arrive, one is swiped away, the country is changed, and the stack is made again. -/
def resettled : List Action :=
  [.deliver 0 ⟨some (.articles [.titled "first", .titled "second"]), false⟩, .mainQueue, .swipe,
    .storeCountry (TopTitles.country "us" "United States"),
    .deliver 0 (TopTitles.found "American"), .mainQueue, .swipe, .bringBackCard false]

theorem stack_settles_resettled :
    ∃ s₀, State.viewDidLoad (fun _ => true) {} = some s₀ ∧
      (machine fun _ => true).Always (Settled fun _ => true) s₀ resettled := by
  obtain ⟨s₀, hload⟩ : ∃ s₀, State.viewDidLoad (fun _ => true) {} = some s₀ := ⟨_, rfl⟩
  have hguard : ∀ s₀ ∈ State.viewDidLoad (fun _ => true) {},
      (machine fun _ => true).Meets Undisturbed s₀ resettled := by decide +kernel
  exact ⟨s₀, hload, stack_settles hload (hguard s₀ hload)⟩

end Settled

/-! ## The button to reload -/

section ReloadButton

variable {parses : String → Bool} {s s' : State}

/-- An empty stack beyond the first card has the button on screen. An empty stack at the first
card with no job waiting has nothing to show. -/
structure CanReload (s : State) : Prop where
  ranOut : s.koloda.visibleCards = [] → 0 < s.koloda.currentCardIndex →
    s.reloadKolodaStackViewIsHidden = false
  nothingFound : s.mainQueue = [] → s.koloda.visibleCards = [] →
    s.koloda.currentCardIndex = 0 → s.news.topNews = []

theorem swiped_canReload {koloda : KolodaView Article}
    (hindex : koloda.currentCardIndex = s.koloda.currentCardIndex + 1) :
    CanReload (s.swiped koloda) := by
  constructor
  · intro hempty _
    change (s.reloadKolodaStackViewIsHidden && !koloda.visibleCards.isEmpty) = false
    rw [show koloda.visibleCards = [] from hempty]
    exact Bool.and_false _
  · intro _ _ hzero
    change koloda.currentCardIndex = 0 at hzero
    omega

theorem revertAction_canReload {koloda : KolodaView Article} {isAnimating : Bool}
    (hreload : CanReload s)
    (h : s.koloda.revertAction (dataSource s.news) isAnimating = some koloda) :
    CanReload (s.withKoloda koloda) := by
  unfold KolodaView.revertAction at h
  split at h
  · obtain ⟨card, -, h⟩ := Option.bind_eq_some_iff.mp h
    obtain rfl := Option.some.inj h
    exact ⟨fun hempty => absurd hempty (List.cons_ne_nil _ _),
      fun _ hempty => absurd hempty (List.cons_ne_nil _ _)⟩
  · obtain rfl := Option.some.inj h
    exact hreload

theorem reloadData_canReload {koloda : KolodaView Article} {hidden : Bool}
    (hranOut : s.koloda.visibleCards = [] → 0 < s.koloda.currentCardIndex → hidden = false)
    (h : s.koloda.reloadData (dataSource s.news) = some koloda) :
    CanReload { s with koloda, reloadKolodaStackViewIsHidden := hidden } := by
  replace h : s.koloda.reloadData (ofList s.news.topNews) = some koloda := h
  rcases reloadData_cases h with
    ⟨hnews, rfl⟩ | ⟨hnews, rfl⟩ | ⟨hindex, hkept, hcards⟩
  · exact ⟨fun _ hpos => absurd hpos (Nat.lt_irrefl 0), fun _ _ _ => hnews⟩
  · exact ⟨fun hempty => absurd hempty (start_deck_ne_nil hnews),
      fun _ hempty => absurd hempty (start_deck_ne_nil hnews)⟩
  · refine ⟨fun hempty _ => hranOut (hcards hempty) hindex, fun _ _ hzero => ?_⟩
    change koloda.currentCardIndex = 0 at hzero
    omega

theorem perform_canReload {job : Job} (hranOut : s.koloda.visibleCards = [] →
      0 < s.koloda.currentCardIndex → s.reloadKolodaStackViewIsHidden = false)
    (h : s.perform job = some s') : CanReload s' := by
  cases job with
  | reloadData =>
      obtain ⟨koloda, hreload, rfl⟩ := Option.map_eq_some_iff.mp h
      exact reloadData_canReload hranOut hreload
  | resetCurrentCardIndex | resetAndHide =>
      obtain ⟨koloda, hreset, rfl⟩ := Option.map_eq_some_iff.mp h
      exact reloadData_canReload (s := s.withKoloda s.koloda.clear)
        (fun _ hpos => absurd hpos (Nat.lt_irrefl 0)) hreset

theorem asked_canReload {completion : Job} {screen : TopTitles.Screen} {a : TopTitles.Action}
    (hask : ∀ i reply, a ≠ .deliver i reply) (h : s.screen.act parses a = some screen)
    (hreload : CanReload s) : CanReload (s.asked completion screen) := by
  have htopNews : (s.asked completion screen).news.topNews = s.news.topNews := ask_topNews hask h
  refine ⟨hreload.ranOut, fun hqueue hempty hzero => ?_⟩
  rw [htopNews]
  exact hreload.nothingFound hqueue hempty hzero

theorem canReload_step {a : Action} (hreload : CanReload s)
    (h : (machine parses).step s a = some s') : CanReload s' := by
  cases a with
  | swipe =>
      obtain ⟨koloda, hswipe, rfl⟩ := Option.map_eq_some_iff.mp h
      exact swiped_canReload (KolodaView.swipedAction_front hswipe).2
  | bringBackCard isAnimating =>
      obtain ⟨koloda, hrevert, rfl⟩ := Option.map_eq_some_iff.mp h
      exact revertAction_canReload hreload hrevert
  | tap tap =>
      obtain rfl := tap_eq h
      exact hreload
  | reloadKolodaViewButtonPressed =>
      change (if s.reloadKolodaStackViewIsHidden then none else _) = some s' at h
      split at h
      · cases h
      · obtain ⟨screen, hask, rfl⟩ := Option.map_eq_some_iff.mp h
        exact asked_canReload (fun _ _ => TopTitles.Action.noConfusion) hask hreload
  | storeCountry country =>
      obtain ⟨screen, hask, rfl⟩ := Option.map_eq_some_iff.mp h
      exact asked_canReload (fun _ _ => TopTitles.Action.noConfusion) hask hreload
  | deliver i reply =>
      obtain ⟨⟨completion, completions⟩, -, h⟩ := Option.bind_eq_some_iff.mp h
      obtain ⟨screen, -, h⟩ := Option.bind_eq_some_iff.mp h
      obtain rfl := Option.some.inj h
      refine ⟨hreload.ranOut, fun hqueue _ _ => ?_⟩
      exact absurd hqueue (List.append_ne_nil_of_right_ne_nil _ (List.cons_ne_nil _ _))
  | mainQueue =>
      obtain ⟨job, mainQueue, -, hperform⟩ := step_mainQueue h
      exact perform_canReload (s := { s with mainQueue }) hreload.ranOut hperform
  | didReceiveMemoryWarning =>
      obtain rfl := Option.some.inj h
      exact ⟨hreload.ranOut, fun _ _ _ => rfl⟩

/-- **An empty stack.** In every run from the load of the screen, a stack without cards and with
no job waiting either has the button to reload on screen, or there are no top news to show. -/
theorem emptyStack_canReload {app : App} {s₀ : State} {as : List Action}
    (hload : State.viewDidLoad parses app = some s₀) :
    (machine parses).Always (fun s => s.mainQueue = [] → s.koloda.visibleCards = [] →
      s.reloadKolodaStackViewIsHidden = false ∨ s.news.topNews = []) s₀ as := by
  refine (machine parses).always_of_meets (G := fun _ _ => True) (I := CanReload)
    (fun hreload _ h => canReload_step hreload h) ?_ ?_
    ((machine parses).meets_of_forall (fun _ _ => trivial) s₀)
  · intro s hreload hqueue hempty
    rcases Nat.eq_zero_or_pos s.koloda.currentCardIndex with hzero | hpos
    · exact Or.inr (hreload.nothingFound hqueue hempty hzero)
    · exact Or.inl (hreload.ranOut hempty hpos)
  · obtain ⟨-, hnews, hkoloda, -⟩ := viewDidLoad_eq hload
    refine ⟨fun _ hpos => ?_, fun _ hempty _ => ?_⟩
    · rw [hkoloda] at hpos
      exact absurd hpos (Nat.lt_irrefl 0)
    · rw [hkoloda] at hempty
      rw [hnews]
      by_contra hne
      exact start_deck_ne_nil hne hempty

/-- One title arrives and is swiped away, and the next answer brings nothing. -/
theorem emptyStack_canReload_ranOut :
    ∃ s₀, State.viewDidLoad (fun _ => true) {} = some s₀ ∧
      (machine fun _ => true).Always (fun s => s.mainQueue = [] → s.koloda.visibleCards = [] →
        s.reloadKolodaStackViewIsHidden = false ∨ s.news.topNews = []) s₀
          [.deliver 0 (TopTitles.found "Bulgarian"), .mainQueue, .swipe,
            .reloadKolodaViewButtonPressed, .deliver 0 ⟨none, true⟩, .mainQueue] := by
  obtain ⟨s₀, hload⟩ : ∃ s₀, State.viewDidLoad (fun _ => true) {} = some s₀ := ⟨_, rfl⟩
  exact ⟨s₀, hload, emptyStack_canReload hload⟩

end ReloadButton

end FlashCards

end NewsFlash.Screens
