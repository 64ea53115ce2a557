import NewsFlash.Library.Simulation
import NewsFlash.Library.Window
import NewsFlash.Screens.Koloda

/-!
# The stack as a cursor

What the card stack is for: it walks a cursor along a row of cards and shows those from the
cursor on. While the row stays the same, every run of swipes, reverts, reloads and resets is the
run of the cursor. Neither moves back while an animation runs.
-/

namespace NewsFlash.Screens

open NewsFlash.Library

namespace Deck

variable {α : Type*}

/-! ## The cursor -/

inductive Action where
  | swipe
  | revert (isAnimating : Bool)
  | reloadData
  | resetCurrentCardIndex
deriving DecidableEq, Repr

/-- A place in a row of cards, or its end. -/
structure Cursor (xs : List α) where
  index : Nat
  inBounds : index ≤ xs.length

namespace Cursor

variable {xs : List α}

def start (xs : List α) : Cursor xs := ⟨0, Nat.zero_le _⟩

def advance (c : Cursor xs) : Option (Cursor xs) :=
  if h : c.index < xs.length then some ⟨c.index + 1, h⟩ else none

def retreat (c : Cursor xs) : Cursor xs :=
  ⟨c.index - 1, Nat.le_trans (Nat.sub_le _ _) c.inBounds⟩

def step (c : Cursor xs) : Action → Option (Cursor xs)
  | .swipe => c.advance
  | .revert isAnimating => some (if isAnimating then c else c.retreat)
  | .reloadData => some c
  | .resetCurrentCardIndex => some (start xs)

def machine (xs : List α) : Machine (Cursor xs) Action where
  step := step

/-- The stack that shows the cards from the cursor on. -/
def deck (c : Cursor xs) : KolodaView α where
  currentCardIndex := c.index
  countOfCards := xs.length
  visibleCards := window xs c.index KolodaView.countOfVisibleCards

end Cursor

/-! ## The stack over a row that stays the same -/

def ofList (xs : List α) : KolodaViewDataSource α where
  kolodaNumberOfCards := xs.length
  viewForCardAt index := xs[index]?

def step (dataSource : KolodaViewDataSource α) (k : KolodaView α) : Action → Option (KolodaView α)
  | .swipe => k.swipedAction dataSource
  | .revert isAnimating => k.revertAction dataSource isAnimating
  | .reloadData => k.reloadData dataSource
  | .resetCurrentCardIndex => k.resetCurrentCardIndex dataSource

def machine (dataSource : KolodaViewDataSource α) : Machine (KolodaView α) Action where
  step := step dataSource

section Actions

variable {xs : List α}

theorem createCards_ofList {start count : Nat} (h : start + count ≤ xs.length) :
    KolodaView.createCards (ofList xs) start count = some (window xs start count) :=
  Window.mapM_getElem? h

theorem setupDeck_ofList {k : KolodaView α} (hempty : k.visibleCards = [])
    (hindex : k.currentCardIndex ≤ xs.length) :
    k.setupDeck (ofList xs) = some (⟨k.currentCardIndex, hindex⟩ : Cursor xs).deck := by
  unfold KolodaView.setupDeck Cursor.deck
  change (if k.currentCardIndex < xs.length then _ else _) = _
  split
  · next hlt =>
      change (KolodaView.createCards (ofList xs) k.currentCardIndex
        (min _ (xs.length - k.currentCardIndex))).bind _ = _
      rw [createCards_ofList (by omega), Option.bind_some, Window.window_min]
      simp only [hempty, List.nil_append]
      rfl
  · next hge =>
      rw [Window.window_eq_nil (Nat.le_of_not_lt hge), hempty]
      rfl

theorem swipedAction_deck (c : Cursor xs) :
    c.deck.swipedAction (ofList xs) = c.advance.map Cursor.deck := by
  unfold KolodaView.swipedAction Cursor.advance
  rcases Nat.lt_or_ge c.index xs.length with hlt | hge
  · have hcards : c.deck.visibleCards = xs[c.index] :: window xs (c.index + 1) 2 :=
      Window.window_eq_cons 2 hlt
    rw [dif_pos hlt, hcards]
    simp only
    change (if c.index + 1 + min 3 xs.length - 1 < xs.length then _ else _) = _
    split
    · next hload =>
        -- a card joins the stack below
        have hlast : c.index + 1 + 2 < xs.length := by omega
        have hindex : c.index + 1 + min 3 xs.length - 1 = c.index + 1 + 2 := by omega
        change Option.bind xs[c.index + 1 + min 3 xs.length - 1]? _ = _
        rw [hindex, List.getElem?_eq_getElem hlast, Option.bind_some]
        simp only [← Window.window_succ hlast]
        rfl
    · next hload =>
        simp only [← Window.window_succ_of_le (show xs.length ≤ c.index + 1 + 2 by omega)]
        rfl
  · have hcards : c.deck.visibleCards = [] := Window.window_eq_nil hge
    rw [dif_neg (Nat.not_lt.mpr hge), hcards]
    rfl

theorem revertAction_isAnimating (dataSource : KolodaViewDataSource α) (k : KolodaView α) :
    k.revertAction dataSource true = some k :=
  if_neg fun h => Bool.noConfusion h.2

theorem revertAction_deck (c : Cursor xs) :
    c.deck.revertAction (ofList xs) false = some c.retreat.deck := by
  unfold KolodaView.revertAction
  change (if 0 < c.index ∧ false = false then _ else _) = _
  split
  · next hguard =>
      have hindex : 0 < c.index := hguard.1
      have hbounds : c.index - 1 < xs.length := by
        have := c.inBounds
        omega
      have hsucc : c.index - 1 + 1 = c.index := by omega
      -- the last card leaves the stack only where it is full
      have hcards : (if KolodaView.countOfVisibleCards + c.index ≤ xs.length then
            (window xs c.index 3).dropLast else window xs c.index 3) = window xs c.index 2 := by
        change (if 3 + c.index ≤ xs.length then _ else _) = _
        split
        · exact Window.dropLast_window (by omega)
        · exact Window.window_succ_of_le (by omega)
      change Option.bind xs[c.index - 1]? _ = _
      rw [List.getElem?_eq_getElem hbounds, Option.bind_some]
      have hwindow : window xs (c.index - 1) 3 = xs[c.index - 1] :: window xs c.index 2 := by
        have h := Window.window_eq_cons 2 hbounds
        rwa [hsucc] at h
      unfold Cursor.deck Cursor.retreat
      simp only [KolodaView.countOfVisibleCards] at hcards ⊢
      rw [hcards, hwindow]
  · next hguard =>
      have hzero : c.index - 1 = c.index := by
        have : ¬ 0 < c.index := fun hpos => hguard ⟨hpos, rfl⟩
        omega
      have hretreat : c.retreat = c := by
        unfold Cursor.retreat
        simp only [hzero]
      rw [hretreat]

theorem reloadData_ofList {k : KolodaView α} (hindex : k.currentCardIndex = 0) (hxs : xs ≠ []) :
    k.reloadData (ofList xs) = some (Cursor.start xs).deck := by
  have hlength : 0 < xs.length := List.length_pos_iff.mpr hxs
  unfold KolodaView.reloadData
  change (if 0 < xs.length then _ else _) = _
  rw [if_pos hlength]
  simp only [if_pos hindex]
  change (if 0 < xs.length then _ else _) = _
  rw [if_pos hlength]
  exact setupDeck_ofList rfl (Nat.zero_le _)

theorem reloadData_deck (c : Cursor xs) : c.deck.reloadData (ofList xs) = some c.deck := by
  by_cases hindex : c.index = 0
  · by_cases hxs : xs = []
    · subst hxs
      unfold KolodaView.reloadData KolodaView.clear Cursor.deck
      rw [hindex]
      rfl
    · have hstart : c = Cursor.start xs := by
        cases c
        cases hindex
        rfl
      rw [reloadData_ofList hindex hxs, hstart]
  · have hbounds := c.inBounds
    have hcards : c.deck.visibleCards.length = min 3 (xs.length - c.index) :=
      Window.length_window _ _ _
    unfold KolodaView.reloadData
    change (if 0 < xs.length then _ else _) = _
    rw [if_pos (by omega)]
    simp only [show c.deck.currentCardIndex ≠ 0 from hindex, if_false]
    change (if c.index + c.deck.visibleCards.length < xs.length then _ else _) = _
    split
    · next hroom =>
        -- the stack is full, so no card is missing
        have hfull : c.deck.visibleCards ≠ [] := by
          intro hempty
          rw [hempty, List.length_nil] at hcards
          omega
        have hmissing : c.deck.missingCardsCount = 0 := by
          unfold KolodaView.missingCardsCount
          rw [hcards]
          simp only [KolodaView.countOfVisibleCards]
          omega
        change (if c.deck.visibleCards = [] then _ else
          c.deck.loadMissingCards (ofList xs) c.deck.missingCardsCount) = _
        rw [if_neg hfull, hmissing]
        rfl
    · next hend =>
        change (KolodaView.createCards (ofList xs) c.index c.deck.visibleCards.length).bind _ = _
        rw [createCards_ofList (by omega), Option.bind_some, hcards, Window.window_min]
        rfl

theorem resetCurrentCardIndex_deck (c : Cursor xs) :
    c.deck.resetCurrentCardIndex (ofList xs) = some (Cursor.start xs).deck :=
  reloadData_deck (Cursor.start xs)

/-- One action of the stack is one step of the cursor. -/
theorem maps_deck (xs : List α) : (Cursor.machine xs).Maps Cursor.deck (machine (ofList xs)) := by
  intro c a
  cases a with
  | swipe => exact swipedAction_deck c
  | revert isAnimating =>
      cases isAnimating with
      | false => exact revertAction_deck c
      | true => exact revertAction_isAnimating (ofList xs) c.deck
  | reloadData => exact reloadData_deck c
  | resetCurrentCardIndex => exact resetCurrentCardIndex_deck c

end Actions

/-- **The stack refines the cursor.** Over a row of cards that stays the same, the stack that has
been set up takes any list of swipes, reverts, reloads and resets exactly as far as the cursor
does, and then shows the cards from the cursor on. -/
theorem run_deck (xs : List α) (as : List Action) :
    (KolodaView.setupDeck (ofList xs) {}).bind (fun k => (machine (ofList xs)).run k as) =
      ((Cursor.machine xs).run (Cursor.start xs) as).map Cursor.deck := by
  rw [setupDeck_ofList rfl (Nat.zero_le _), Option.bind_some]
  exact (maps_deck xs).run (Cursor.start xs) as

/-! ## Walking through the row -/

section Walk

variable {xs : List α}

theorem Cursor.run_swipe (n : Nat) (c : Cursor xs) :
    (Cursor.machine xs).run c (List.replicate n .swipe) =
      if h : c.index + n ≤ xs.length then some ⟨c.index + n, h⟩ else none := by
  induction n generalizing c with
  | zero => rw [dif_pos (show c.index + 0 ≤ xs.length from c.inBounds)]; rfl
  | succ n ih =>
      rw [List.replicate_succ, Machine.run_cons]
      change c.advance.bind _ = _
      unfold Cursor.advance
      split
      · next hlt =>
          rw [Option.bind_some, ih]
          simp only [Nat.add_right_comm, Nat.add_assoc]
      · next hge =>
          rw [Option.bind_none, dif_neg (by omega)]

theorem Cursor.run_revert (n : Nat) (c : Cursor xs) :
    (Cursor.machine xs).run c (List.replicate n (.revert false)) =
      some ⟨c.index - n, Nat.le_trans (Nat.sub_le _ _) c.inBounds⟩ := by
  induction n generalizing c with
  | zero => rfl
  | succ n ih =>
      rw [List.replicate_succ, Machine.run_cons]
      change Option.bind (some c.retreat) _ = _
      rw [Option.bind_some, ih]
      have hindex : c.retreat.index - n = c.index - (n + 1) := Nat.sub_sub _ _ _ |>.trans
        (by rw [Nat.add_comm])
      simp only [hindex]

theorem Cursor.front_deck (c : Cursor xs) : c.deck.front = xs[c.index]? :=
  Window.head?_window c.index 2

/-- **Swipes and their reverts.** Wherever a run over a row of cards has come to, `n` more swipes
are possible exactly while the row has that many cards left; the card then on top is the one that
stands `n` places further, and `n` reverts, none of them during an animation, bring back the whole
stack as it was. -/
theorem swipes_reverted {as : List Action} {k : KolodaView α}
    (h : (KolodaView.setupDeck (ofList xs) {}).bind (fun k => (machine (ofList xs)).run k as) =
      some k) (n : Nat) :
    (((machine (ofList xs)).run k (List.replicate n .swipe)).isSome ↔
      k.currentCardIndex + n ≤ xs.length) ∧
    ∀ k' ∈ (machine (ofList xs)).run k (List.replicate n .swipe),
      k'.front = xs[k.currentCardIndex + n]? ∧
        (machine (ofList xs)).run k' (List.replicate n (.revert false)) = some k := by
  rw [run_deck] at h
  obtain ⟨c, -, rfl⟩ := Option.map_eq_some_iff.mp h
  rw [(maps_deck xs).run, Cursor.run_swipe]
  change (_ ↔ c.index + n ≤ xs.length) ∧ _
  split
  · next hbounds =>
      refine ⟨iff_of_true rfl hbounds, ?_⟩
      rintro k' hk'
      obtain rfl := Option.some.inj hk'
      refine ⟨Cursor.front_deck _, ?_⟩
      rw [(maps_deck xs).run, Cursor.run_revert]
      simp only [Nat.add_sub_cancel]
      rfl
  · next hbounds =>
      refine ⟨iff_of_false (by simp) hbounds, ?_⟩
      rintro k' hk'
      cases hk'

theorem swipes_reverted_toTheEnd :
    (machine (ofList [1, 2, 3, 4, 5])).run
      { currentCardIndex := 1, countOfCards := 5, visibleCards := [2, 3, 4] }
        (List.replicate 4 .swipe) =
      some { currentCardIndex := 5, countOfCards := 5, visibleCards := [] } ∧
    (machine (ofList [1, 2, 3, 4, 5])).run
      { currentCardIndex := 5, countOfCards := 5, visibleCards := [] }
        (List.replicate 4 (.revert false)) =
      some { currentCardIndex := 1, countOfCards := 5, visibleCards := [2, 3, 4] } := by
  have hswiped : (machine (ofList [1, 2, 3, 4, 5])).run
      { currentCardIndex := 1, countOfCards := 5, visibleCards := [2, 3, 4] }
        (List.replicate 4 .swipe) =
      some { currentCardIndex := 5, countOfCards := 5, visibleCards := [] } := rfl
  have hreverted := @swipes_reverted _ [1, 2, 3, 4, 5] [.swipe] _ rfl 4
  exact ⟨hswiped, (hreverted.2 _ hswiped).2⟩

end Walk

/-! ## A stack over a row that has come to stay -/

/-- The stack shows the row from its index on. Its count may be an old one where there is nothing
to show. -/
structure Shows (xs : List α) (k : KolodaView α) : Prop where
  visibleCards : k.visibleCards = window xs k.currentCardIndex KolodaView.countOfVisibleCards
  countOfCards : xs ≠ [] → k.countOfCards = xs.length

/-- The index is one of the row, or its end. -/
structure Deals (xs : List α) (k : KolodaView α) : Prop extends Shows xs k where
  inBounds : k.currentCardIndex ≤ xs.length

section Deals

variable {xs : List α} {k k' : KolodaView α}

theorem deals_deck (c : Cursor xs) : Deals xs c.deck := ⟨⟨rfl, fun _ => rfl⟩, c.inBounds⟩

theorem Deals.eq_deck (h : Deals xs k) (hxs : xs ≠ []) : ∃ c : Cursor xs, k = c.deck := by
  refine ⟨⟨k.currentCardIndex, h.inBounds⟩, ?_⟩
  unfold Cursor.deck
  rw [← h.visibleCards, ← h.countOfCards hxs]

theorem deals_nil :
    Deals ([] : List α) k ↔ k.currentCardIndex = 0 ∧ k.visibleCards = [] := by
  constructor
  · intro h
    refine ⟨Nat.le_zero.mp h.inBounds, ?_⟩
    rw [h.visibleCards, Window.window_eq_nil (Nat.zero_le _)]
  · rintro ⟨hindex, hcards⟩
    refine ⟨⟨?_, fun h => absurd rfl h⟩, Nat.le_of_eq hindex⟩
    rw [hcards, Window.window_eq_nil (Nat.zero_le _)]

theorem clear_deals (k : KolodaView α) : Deals [] k.clear := deals_nil.mpr ⟨rfl, rfl⟩

theorem reloadData_deals (hindex : k.currentCardIndex = 0 ∨ xs = [])
    (h : k.reloadData (ofList xs) = some k') : Deals xs k' := by
  by_cases hxs : xs = []
  · subst hxs
    obtain rfl := Option.some.inj h
    exact clear_deals k
  · rw [reloadData_ofList (hindex.resolve_right hxs) hxs] at h
    obtain rfl := Option.some.inj h
    exact deals_deck _

theorem resetCurrentCardIndex_deals (h : k.resetCurrentCardIndex (ofList xs) = some k') :
    Deals xs k' := reloadData_deals (Or.inl rfl) h

theorem Deals.swipedAction (h : Deals xs k) (hs : k.swipedAction (ofList xs) = some k') :
    Deals xs k' := by
  by_cases hxs : xs = []
  · subst hxs
    unfold KolodaView.swipedAction at hs
    rw [(deals_nil.mp h).2] at hs
    cases hs
  · obtain ⟨c, rfl⟩ := h.eq_deck hxs
    rw [swipedAction_deck] at hs
    obtain ⟨c', -, rfl⟩ := Option.map_eq_some_iff.mp hs
    exact deals_deck c'

theorem Deals.revertAction (h : Deals xs k) (isAnimating : Bool) :
    ∃ k', k.revertAction (ofList xs) isAnimating = some k' ∧ Deals xs k' := by
  cases isAnimating with
  | true => exact ⟨k, revertAction_isAnimating (ofList xs) k, h⟩
  | false =>
      by_cases hxs : xs = []
      · subst hxs
        refine ⟨k, ?_, h⟩
        unfold KolodaView.revertAction
        rw [(deals_nil.mp h).1]
        rfl
      · obtain ⟨c, rfl⟩ := h.eq_deck hxs
        exact ⟨c.retreat.deck, revertAction_deck c, deals_deck _⟩

theorem Deals.swipedAction_isSome (h : Deals xs k) (hcards : k.visibleCards ≠ []) :
    (k.swipedAction (ofList xs)).isSome := by
  by_cases hxs : xs = []
  · subst hxs
    exact absurd (deals_nil.mp h).2 hcards
  · obtain ⟨c, rfl⟩ := h.eq_deck hxs
    have hlt : c.index < xs.length := by
      by_contra hge
      exact hcards (Window.window_eq_nil (Nat.le_of_not_lt hge))
    rw [swipedAction_deck, Cursor.advance, dif_pos hlt]
    rfl

theorem createCards_nil {dataSource : KolodaViewDataSource α} {start count : Nat}
    (h : KolodaView.createCards dataSource start count = some []) : count = 0 := by
  cases count with
  | zero => rfl
  | succ count =>
      rw [KolodaView.createCards, List.range'_succ, List.mapM_cons] at h
      obtain ⟨first, -, h⟩ := Option.bind_eq_some_iff.mp h
      obtain ⟨rest, -, h⟩ := Option.bind_eq_some_iff.mp h
      cases h

/-- A reload clears the stack, sets it up anew, or leaves the index and takes no card away. -/
theorem reloadData_cases (h : k.reloadData (ofList xs) = some k') :
    (xs = [] ∧ k' = k.clear) ∨ (xs ≠ [] ∧ k' = (Cursor.start xs).deck) ∨
      (0 < k.currentCardIndex ∧ k'.currentCardIndex = k.currentCardIndex ∧
        (k'.visibleCards = [] → k.visibleCards = [])) := by
  by_cases hxs : xs = []
  · subst hxs
    exact Or.inl ⟨rfl, (Option.some.inj h).symm⟩
  by_cases hindex : k.currentCardIndex = 0
  · rw [reloadData_ofList hindex hxs] at h
    exact Or.inr (Or.inl ⟨hxs, (Option.some.inj h).symm⟩)
  refine Or.inr (Or.inr ⟨Nat.pos_of_ne_zero hindex, ?_⟩)
  unfold KolodaView.reloadData at h
  simp only [hindex, if_false] at h
  change (if 0 < xs.length then _ else _) = _ at h
  rw [if_pos (List.length_pos_iff.mpr hxs)] at h
  split at h
  · split at h
    · next hempty =>
        refine ⟨?_, fun _ => hempty⟩
        unfold KolodaView.setupDeck at h
        simp only at h
        split at h
        · obtain ⟨cards, -, h⟩ := Option.bind_eq_some_iff.mp h
          obtain rfl := Option.some.inj h
          rfl
        · obtain rfl := Option.some.inj h
          rfl
    · next hcards =>
        -- cards only join the stack
        unfold KolodaView.loadMissingCards at h
        split at h
        · obtain ⟨cards, -, h⟩ := Option.bind_eq_some_iff.mp h
          obtain rfl := Option.some.inj h
          exact ⟨rfl, fun hempty => (List.append_eq_nil_iff.mp hempty).1⟩
        · obtain rfl := Option.some.inj h
          exact ⟨rfl, id⟩
  · obtain ⟨cards, hcards, h⟩ := Option.bind_eq_some_iff.mp h
    obtain rfl := Option.some.inj h
    refine ⟨rfl, fun hempty => ?_⟩
    rw [show cards = [] from hempty] at hcards
    exact List.length_eq_zero_iff.mp (createCards_nil hcards)

theorem start_deck_ne_nil (hxs : xs ≠ []) : (Cursor.start xs).deck.visibleCards ≠ [] := by
  intro hempty
  have hfront := Cursor.front_deck (Cursor.start xs)
  rw [KolodaView.front, hempty, List.head?_nil] at hfront
  exact hxs (List.length_eq_zero_iff.mp
    (Nat.le_zero.mp (List.getElem?_eq_none_iff.mp hfront.symm)))

/-! ## A stack that has run past its row -/

theorem Shows.deals (h : Shows xs k) (hcards : k.visibleCards ≠ []) : Deals xs k := by
  refine ⟨h, ?_⟩
  by_contra hindex
  refine hcards ?_
  rw [h.visibleCards, Window.window_eq_nil (Nat.le_of_not_le hindex)]

theorem Shows.front (h : Shows xs k) : k.front = xs[k.currentCardIndex]? := by
  rw [KolodaView.front, h.visibleCards]
  exact Window.head?_window k.currentCardIndex 2

/-- Without a card to bring back, a revert traps or does nothing. -/
theorem Shows.revertAction {isAnimating : Bool} (h : Shows xs k)
    (hs : k.revertAction (ofList xs) isAnimating = some k') : Shows xs k' := by
  rcases Nat.lt_or_ge xs.length k.currentCardIndex with hpast | hbounds
  · unfold KolodaView.revertAction at hs
    split at hs
    · obtain ⟨card, hcard, -⟩ := Option.bind_eq_some_iff.mp hs
      have hlt : k.currentCardIndex - 1 < xs.length := (List.getElem?_eq_some_iff.mp hcard).1
      omega
    · obtain rfl := Option.some.inj hs
      exact h
  · have hdeals : Deals xs k := ⟨h, hbounds⟩
    obtain ⟨koloda, hrevert, hdeals'⟩ := hdeals.revertAction isAnimating
    obtain rfl := Option.some.inj (hs.symm.trans hrevert)
    exact hdeals'.toShows

/-- A reload of an empty stack deals from the index on. -/
theorem reloadData_shows (h : k.visibleCards = [] ∨ Shows xs k)
    (hs : k.reloadData (ofList xs) = some k') : Shows xs k' := by
  by_cases hreset : k.currentCardIndex = 0 ∨ xs = []
  · exact (reloadData_deals hreset hs).toShows
  obtain ⟨hindex, hxs⟩ := not_or.mp hreset
  by_cases hempty : k.visibleCards = []
  · unfold KolodaView.reloadData at hs
    change (if 0 < xs.length then _ else _) = _ at hs
    rw [if_pos (List.length_pos_iff.mpr hxs)] at hs
    simp only [hindex, if_false, hempty, List.length_nil, Nat.add_zero, if_true] at hs
    split at hs
    · next hlt =>
        have hsetup := setupDeck_ofList (k := ⟨k.currentCardIndex, xs.length, []⟩) rfl
          (Nat.le_of_lt hlt)
        obtain rfl := Option.some.inj (hs.symm.trans hsetup)
        exact (deals_deck _).toShows
    · next hge =>
        -- no card is left to be made again
        obtain rfl := Option.some.inj hs
        exact ⟨(Window.window_eq_nil (Nat.le_of_not_lt hge)).symm, fun _ => rfl⟩
  · obtain ⟨c, rfl⟩ := ((h.resolve_left hempty).deals hempty).eq_deck hxs
    rw [reloadData_deck] at hs
    obtain rfl := Option.some.inj hs
    exact (deals_deck c).toShows

end Deals

end Deck

end NewsFlash.Screens
