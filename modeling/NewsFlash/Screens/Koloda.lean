import Mathlib.Data.List.Range

/-!
# The card stack

`KolodaView` keeps a few cards of a longer row in `visibleCards`, the first of which is on top
at `currentCardIndex`. A card is made by `viewForCardAt` when it joins the stack and keeps what
it was given then. `isLoop` is off and the animations are left out.
-/

namespace NewsFlash.Screens

/-- `viewForCardAt` traps where it is `none`. -/
structure KolodaViewDataSource (α : Type*) where
  kolodaNumberOfCards : Nat
  viewForCardAt : Nat → Option α

structure KolodaView (α : Type*) where
  currentCardIndex : Nat := 0
  countOfCards : Nat := 0
  visibleCards : List α := []
deriving DecidableEq, Repr

namespace KolodaView

variable {α : Type*}

def countOfVisibleCards : Nat := 3

def front (k : KolodaView α) : Option α := k.visibleCards.head?

section Actions

variable (dataSource : KolodaViewDataSource α)

def createCards (start count : Nat) : Option (List α) :=
  (List.range' start count).mapM dataSource.viewForCardAt

def setupDeck (k : KolodaView α) : Option (KolodaView α) :=
  let k := { k with countOfCards := dataSource.kolodaNumberOfCards }
  if k.currentCardIndex < k.countOfCards then do
    let countOfNeededCards := min countOfVisibleCards (k.countOfCards - k.currentCardIndex)
    let cards ← createCards dataSource k.currentCardIndex countOfNeededCards
    some { k with visibleCards := k.visibleCards ++ cards }
  else some k

def clear (k : KolodaView α) : KolodaView α := { k with currentCardIndex := 0, visibleCards := [] }

def loadNextCard (k : KolodaView α) : Option (KolodaView α) := do
  let realCountOfCards := dataSource.kolodaNumberOfCards
  let indexToBeMake := k.currentCardIndex + min countOfVisibleCards realCountOfCards - 1
  let lastCard ← dataSource.viewForCardAt indexToBeMake
  some { k with visibleCards := k.visibleCards ++ [lastCard] }

def swipedAction (k : KolodaView α) : Option (KolodaView α) :=
  match k.visibleCards with
  | [] => none
  | _ :: visibleCards =>
      let k := { k with visibleCards, currentCardIndex := k.currentCardIndex + 1 }
      let indexToBeShow := k.currentCardIndex + min countOfVisibleCards k.countOfCards - 1
      let realCountOfCards := dataSource.kolodaNumberOfCards
      if indexToBeShow < realCountOfCards then k.loadNextCard dataSource else some k

def revertAction (isAnimating : Bool) (k : KolodaView α) : Option (KolodaView α) :=
  if 0 < k.currentCardIndex ∧ isAnimating = false then do
    let visibleCards :=
      if countOfVisibleCards + k.currentCardIndex ≤ k.countOfCards then k.visibleCards.dropLast
      else k.visibleCards
    let firstCardView ← dataSource.viewForCardAt (k.currentCardIndex - 1)
    some { k with
      currentCardIndex := k.currentCardIndex - 1
      visibleCards := firstCardView :: visibleCards }
  else some k

/-- Where the counts leave nothing to be added, they would be negative in the source. -/
def missingCardsCount (k : KolodaView α) : Nat :=
  min (countOfVisibleCards - k.visibleCards.length)
    (k.countOfCards - (k.currentCardIndex + k.visibleCards.length))

def loadMissingCards (missingCardsCount : Nat) (k : KolodaView α) : Option (KolodaView α) :=
  if 0 < missingCardsCount then do
    let cardsToAdd := min missingCardsCount (k.countOfCards - k.currentCardIndex)
    let cards ← createCards dataSource (k.currentCardIndex + k.visibleCards.length) cardsToAdd
    some { k with visibleCards := k.visibleCards ++ cards }
  else some k

def reconfigureCards (k : KolodaView α) : Option (KolodaView α) := do
  let visibleCards ← createCards dataSource k.currentCardIndex k.visibleCards.length
  some { k with visibleCards }

def reloadData (k : KolodaView α) : Option (KolodaView α) :=
  let numberOfCards := dataSource.kolodaNumberOfCards
  if 0 < numberOfCards then
    let k := if k.currentCardIndex = 0 then k.clear else k
    let k := { k with countOfCards := numberOfCards }
    if k.currentCardIndex + k.visibleCards.length < k.countOfCards then
      if k.visibleCards = [] then k.setupDeck dataSource
      else k.loadMissingCards dataSource k.missingCardsCount
    else k.reconfigureCards dataSource
  else some k.clear

def resetCurrentCardIndex (k : KolodaView α) : Option (KolodaView α) :=
  k.clear.reloadData dataSource

end Actions

/-! ## What is on top after an action -/

section Front

variable {dataSource : KolodaViewDataSource α} {k k' : KolodaView α}

/-- The card on top, if any, is the one that would be made now. -/
def Fresh (dataSource : KolodaViewDataSource α) (k : KolodaView α) : Prop :=
  ∀ card ∈ k.front, dataSource.viewForCardAt k.currentCardIndex = some card

theorem fresh_of_nil (h : k.visibleCards = []) : Fresh dataSource k := by
  intro card hcard
  rw [front, h] at hcard
  cases hcard

theorem createCards_head {start count : Nat} {cards : List α}
    (h : createCards dataSource start count = some cards) :
    ∀ card ∈ cards.head?, dataSource.viewForCardAt start = some card := by
  intro card hcard
  cases count with
  | zero =>
      obtain rfl := Option.some.inj h
      cases hcard
  | succ count =>
      rw [createCards, List.range'_succ, List.mapM_cons] at h
      obtain ⟨first, hfirst, h⟩ := Option.bind_eq_some_iff.mp h
      obtain ⟨rest, -, h⟩ := Option.bind_eq_some_iff.mp h
      obtain rfl := Option.some.inj h
      obtain rfl := Option.some.inj hcard
      exact hfirst

theorem setupDeck_fresh (hempty : k.visibleCards = [])
    (h : k.setupDeck dataSource = some k') : Fresh dataSource k' := by
  unfold setupDeck at h
  simp only [hempty, List.nil_append] at h
  split at h
  · obtain ⟨cards, hcards, h⟩ := Option.bind_eq_some_iff.mp h
    obtain rfl := Option.some.inj h
    exact createCards_head hcards
  · obtain rfl := Option.some.inj h
    exact fresh_of_nil rfl

theorem reconfigureCards_fresh (h : k.reconfigureCards dataSource = some k') :
    Fresh dataSource k' := by
  obtain ⟨cards, hcards, h⟩ := Option.bind_eq_some_iff.mp h
  obtain rfl := Option.some.inj h
  exact createCards_head hcards

theorem loadMissingCards_front {missing : Nat} (hcards : k.visibleCards ≠ [])
    (h : k.loadMissingCards dataSource missing = some k') :
    k'.front = k.front ∧ k'.currentCardIndex = k.currentCardIndex := by
  unfold loadMissingCards at h
  split at h
  · obtain ⟨cards, -, h⟩ := Option.bind_eq_some_iff.mp h
    obtain rfl := Option.some.inj h
    exact ⟨List.head?_append_of_ne_nil _ hcards, rfl⟩
  · obtain rfl := Option.some.inj h
    exact ⟨rfl, rfl⟩

/-- A reload makes the card on top again or leaves it where it is. -/
theorem reloadData_front (h : k.reloadData dataSource = some k') :
    Fresh dataSource k' ∨ (k'.front = k.front ∧ k'.currentCardIndex = k.currentCardIndex) := by
  unfold reloadData at h
  simp only at h
  split at h
  · by_cases hindex : k.currentCardIndex = 0
    · -- the stack has been cleared, so it is set up again
      rw [if_pos hindex] at h
      left
      split at h
      · exact setupDeck_fresh rfl h
      · exact reconfigureCards_fresh h
    · rw [if_neg hindex] at h
      split at h
      · split at h
        · next hempty => exact Or.inl (setupDeck_fresh hempty h)
        · next hcards =>
            right
            exact loadMissingCards_front
              (k := { k with countOfCards := dataSource.kolodaNumberOfCards }) hcards h
      · exact Or.inl (reconfigureCards_fresh h)
  · obtain rfl := Option.some.inj h
    exact Or.inl (fresh_of_nil rfl)

theorem resetCurrentCardIndex_fresh (h : k.resetCurrentCardIndex dataSource = some k') :
    Fresh dataSource k' := by
  rcases reloadData_front h with hfresh | ⟨hfront, -⟩
  · exact hfresh
  · intro card hcard
    rw [hfront] at hcard
    cases hcard

theorem revertAction_front {isAnimating : Bool}
    (h : k.revertAction dataSource isAnimating = some k') : Fresh dataSource k' ∨ k' = k := by
  unfold revertAction at h
  split at h
  · obtain ⟨card, hcard, h⟩ := Option.bind_eq_some_iff.mp h
    obtain rfl := Option.some.inj h
    left
    intro card' hcard'
    obtain rfl := Option.some.inj hcard'
    exact hcard
  · exact Or.inr (Option.some.inj h).symm

def nextCard (dataSource : KolodaViewDataSource α) (k : KolodaView α) : Option α :=
  match k.visibleCards.tail with
  | card :: _ => some card
  | [] =>
      let realCountOfCards := dataSource.kolodaNumberOfCards
      if k.currentCardIndex + min countOfVisibleCards k.countOfCards < realCountOfCards then
        dataSource.viewForCardAt (k.currentCardIndex + min countOfVisibleCards realCountOfCards)
      else none

theorem swipedAction_front (h : k.swipedAction dataSource = some k') :
    k'.front = k.nextCard dataSource ∧ k'.currentCardIndex = k.currentCardIndex + 1 := by
  have hindex : ∀ n, k.currentCardIndex + 1 + n - 1 = k.currentCardIndex + n := by omega
  unfold swipedAction at h
  unfold nextCard
  split at h
  · cases h
  · next card cards hcards =>
      simp only [hindex] at h
      rw [hcards, List.tail_cons]
      split at h
      · next hload =>
          obtain ⟨last, hlast, h⟩ := Option.bind_eq_some_iff.mp h
          obtain rfl := Option.some.inj h
          simp only [hindex] at hlast
          cases cards with
          | nil =>
              refine ⟨?_, rfl⟩
              simp only [if_pos hload, hlast]
              rfl
          | cons next cards => exact ⟨rfl, rfl⟩
      · next hload =>
          obtain rfl := Option.some.inj h
          cases cards with
          | nil => exact ⟨(if_neg hload).symm, rfl⟩
          | cons next cards => exact ⟨rfl, rfl⟩

end Front

end KolodaView

end NewsFlash.Screens
