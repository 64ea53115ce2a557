import NewsFlash.Library.Indicator
import NewsFlash.Pages.ForYou

/-!
# What the For You screen shows besides its list

An answer queues its part on the main queue; the part of a refresh ends the refreshing of the
control. Every time the screen appears to a guest it adds one more label that asks to sign up,
but it knows the last one only. `KeepsAsking` says exactly which steps leave the labels as the
screen last appeared, and `KeepsRefreshing` which ones leave no control that spins for nothing.
-/

namespace NewsFlash.Pages.ForYouView

open NewsFlash.Library NewsFlash.Models NewsFlash.Pages.ForYou

/-! ## The screen -/

inductive MainPart where
  | reloadData (endRefreshing : Bool)
  | showMessage
deriving DecidableEq, Repr

/-- The labels in the view, each with its `isHidden`: `noLoggedUserLabel`, unless it has been
removed, and those that it was before. `guest` tells to whom the screen last appeared. -/
structure View where
  screen : Screen
  mainQueue : List MainPart := []
  noLoggedUserLabel : Option Bool := none
  otherLabels : List Bool := []
  guest : Option Bool := none

inductive Event where
  | act (action : Action)
  | viewWillAppear
  | mainQueue

namespace View

def labels (v : View) : List Bool := v.otherLabels ++ v.noLoggedUserLabel.toList

def onNews (v : View) (replaces : Bool) : Bool → View
  | true => { v with mainQueue := v.mainQueue ++ [.reloadData replaces] }
  | false => { v with
      noLoggedUserLabel := if replaces then none else v.noLoggedUserLabel
      mainQueue := v.mainQueue ++ [.showMessage] }

def viewWillAppear (v : View) : View :=
  if UserRepository.fetch .firstname v.screen.app.defaults = none then { v with
    -- The label becomes visible before a new one takes its place.
    noLoggedUserLabel := some false
    otherLabels := v.otherLabels ++ (v.noLoggedUserLabel.map fun _ => false).toList
    guest := some true }
  else { v with
    noLoggedUserLabel := v.noLoggedUserLabel.map fun _ => true
    guest := some false }

section Service

variable (parses : String → Bool) (pages : List String → String → Nat → List Article)

def withScreen (v : View) (action : Action) : Option View :=
  (v.screen.act parses pages action).map fun screen => { v with screen }

def step (v : View) : Event → Option View
  | .act (.deliver i ok) => (pick v.screen.inFlight i).bind fun (pending, _) =>
      (v.withScreen parses pages (.deliver i ok)).map fun v => v.onNews pending.replaces ok
  | .act action => v.withScreen parses pages action
  | .viewWillAppear => some v.viewWillAppear
  | .mainQueue =>
      if v.mainQueue = [] then none else some { v with mainQueue := v.mainQueue.tail }

end Service

end View

def machine (parses : String → Bool) (pages : List String → String → Nat → List Article) :
    Machine View Event where
  step := View.step parses pages

/-! ## Labels and the control -/

/-- A guest who looks at the screen is asked to sign up, and a user is not. -/
def Asks (v : View) : Prop := ∀ guest ∈ v.guest, (guest = true ↔ false ∈ v.labels)

/-- A user sees no label that the screen does not know any more, and a failed refresh leaves a
guest another one. -/
def KeepsAsking (v : View) : Event → Prop
  | .viewWillAppear =>
      UserRepository.fetch .firstname v.screen.app.defaults ≠ none → v.otherLabels = []
  | .act (.deliver i false) => ∀ picked ∈ pick v.screen.inFlight i,
      picked.1.replaces = true → v.guest = some true → v.otherLabels ≠ []
  | _ => True

instance (v : View) : (e : Event) → Decidable (KeepsAsking v e)
  | .viewWillAppear => inferInstanceAs (Decidable (_ → _))
  | .act (.deliver i false) =>
      inferInstanceAs (Decidable (∀ _ ∈ pick v.screen.inFlight i, _ → _ → _))
  | .act (.deliver _ true) | .act .renderLoadingRow | .act .handleRefresh | .act (.store ..)
  | .act .didReceiveMemoryWarning | .mainQueue => inferInstanceAs (Decidable True)

/-- A refresh that ends the refreshing is in flight or waits for its turn. -/
def Awaited (inFlight : List Pending) (mainQueue : List MainPart) : Prop :=
  (∃ pending ∈ inFlight, pending.replaces = true) ∨ MainPart.reloadData true ∈ mainQueue

instance (inFlight : List Pending) (mainQueue : List MainPart) :
    Decidable (Awaited inFlight mainQueue) :=
  inferInstanceAs (Decidable (_ ∨ _))

def refreshControl (parses : String → Bool) (pages : List String → String → Nat → List Article) :
    Indicator (machine parses pages) where
  starts
    | .act .handleRefresh => true
    | _ => false
  stops v
    | .mainQueue => v.mainQueue.head? = some (.reloadData true)
    | _ => false
  awaited v := Awaited v.screen.inFlight v.mainQueue

/-- The control is pulled by somebody with interests, and what fails is not the last refresh. -/
def KeepsRefreshing (v : View) : Event → Prop
  | .act .handleRefresh =>
      (settings v.screen.app).isSome ∨ Awaited v.screen.inFlight v.mainQueue
  | .act (.deliver i false) => ∀ picked ∈ pick v.screen.inFlight i, Awaited picked.2 v.mainQueue
  | _ => True

/-! ## What one step does -/

section Steps

variable {parses : String → Bool} {pages : List String → String → Nat → List Article}
  {v v' : View} {action : Action}

theorem withScreen_eq (h : v.withScreen parses pages action = some v') :
    ∃ screen, v.screen.act parses pages action = some screen ∧ v' = { v with screen } := by
  obtain ⟨screen, hact, rfl⟩ := Option.map_eq_some_iff.mp h
  exact ⟨screen, hact, rfl⟩

theorem step_deliver {i : Nat} {ok : Bool}
    (h : v.step parses pages (.act (.deliver i ok)) = some v') :
    ∃ pending rest screen, pick v.screen.inFlight i = some (pending, rest) ∧
      v.screen.act parses pages (.deliver i ok) = some screen ∧ screen.inFlight = rest ∧
      v' = { v with screen }.onNews pending.replaces ok := by
  obtain ⟨⟨pending, rest⟩, hpick, h⟩ := Option.bind_eq_some_iff.mp h
  obtain ⟨w, hw, rfl⟩ := Option.map_eq_some_iff.mp h
  obtain ⟨screen, hact, rfl⟩ := withScreen_eq hw
  refine ⟨pending, rest, screen, hpick, hact, ?_, rfl⟩
  cases ok with
  | true =>
      obtain ⟨other, rest', hpick', rfl⟩ := act_deliver_ok hact
      obtain ⟨rfl, rfl⟩ := Prod.mk.inj (Option.some.inj (hpick.symm.trans hpick'))
      rfl
  | false =>
      obtain ⟨other, rest', hpick', rfl⟩ := act_deliver_failed hact
      obtain ⟨rfl, rfl⟩ := Prod.mk.inj (Option.some.inj (hpick.symm.trans hpick'))
      rfl

end Steps

/-! ## The labels -/

section Labels

variable {parses : String → Bool} {pages : List String → String → Nat → List Article}
  {v v' : View}

/-- The labels that the screen does not know any more are visible for good. -/
def Forgotten (v : View) : Prop := ∀ hidden ∈ v.otherLabels, hidden = false

theorem false_mem_labels (hv : Forgotten v) :
    false ∈ v.labels ↔ v.otherLabels ≠ [] ∨ v.noLoggedUserLabel = some false := by
  rw [View.labels, List.mem_append, Option.mem_toList]
  refine or_congr_left ⟨List.ne_nil_of_mem, fun hne => ?_⟩
  obtain ⟨hidden, hmem⟩ := List.exists_mem_of_ne_nil _ hne
  exact hv hidden hmem ▸ hmem

theorem forgotten_viewWillAppear (hv : Forgotten v) : Forgotten v.viewWillAppear := by
  unfold View.viewWillAppear
  split
  · intro hidden hmem
    rcases List.mem_append.mp hmem with hmem | hmem
    · exact hv hidden hmem
    · obtain ⟨_, -, rfl⟩ := Option.map_eq_some_iff.mp (Option.mem_toList.mp hmem)
      rfl
  · exact hv

theorem asks_viewWillAppear (hv : Forgotten v) :
    Asks v.viewWillAppear ↔ KeepsAsking v .viewWillAppear := by
  have hlabels := false_mem_labels (forgotten_viewWillAppear hv)
  unfold Asks
  rw [hlabels]
  unfold View.viewWillAppear KeepsAsking
  by_cases hguest : UserRepository.fetch .firstname v.screen.app.defaults = none
  · simp [hguest]
  · simp [hguest]

theorem asks_onNews {replaces ok : Bool} (hv : Forgotten v) (hasks : Asks v) :
    Asks (v.onNews replaces ok) ↔
      (ok = false → replaces = true → v.guest = some true → v.otherLabels ≠ []) := by
  cases ok with
  | true => exact iff_of_true hasks fun h => by cases h
  | false =>
      cases replaces with
      | false => exact iff_of_true hasks fun _ h => by cases h
      | true =>
          have hforgotten : Forgotten (v.onNews true false) := hv
          unfold Asks at hasks ⊢
          rw [false_mem_labels hv] at hasks
          rw [false_mem_labels hforgotten]
          cases hguest : v.guest with
          | none => exact iff_of_true (fun _ h => by simp [View.onNews, hguest] at h) (by simp)
          | some guest =>
              have hknown := hasks guest hguest
              cases guest with
              | true => simp [View.onNews, hguest]
              | false =>
                  have hempty : v.otherLabels = [] := by
                    by_contra hne
                    cases hknown.mpr (Or.inl hne)
                  simp [View.onNews, hguest, hempty]

theorem asks_step {e : Event} (hv : Forgotten v) (hasks : Asks v)
    (h : v.step parses pages e = some v') : Asks v' ↔ KeepsAsking v e := by
  cases e with
  | act action =>
      cases action with
      | deliver i ok =>
          obtain ⟨pending, rest, screen, hpick, -, -, rfl⟩ := step_deliver h
          have hscreen : Asks { v with screen } := hasks
          refine (asks_onNews (v := { v with screen }) hv hscreen).trans ?_
          cases ok with
          | true => exact iff_of_true (fun h => by cases h) trivial
          | false => simp [KeepsAsking, hpick]
      | renderLoadingRow | handleRefresh | store | didReceiveMemoryWarning =>
          obtain ⟨screen, -, rfl⟩ := withScreen_eq h
          exact iff_of_true hasks trivial
  | viewWillAppear =>
      obtain rfl := Option.some.inj h
      exact asks_viewWillAppear hv
  | mainQueue =>
      obtain ⟨-, h⟩ := Option.ite_none_left_eq_some.mp h
      obtain rfl := Option.some.inj h
      exact iff_of_true hasks trivial

/-- Nothing takes a label away that the screen does not know any more. -/
theorem forgotten_step {e : Event} (hv : Forgotten v) (h : v.step parses pages e = some v') :
    v.otherLabels <+: v'.otherLabels ∧ Forgotten v' := by
  cases e with
  | act action =>
      cases action with
      | deliver i ok =>
          obtain ⟨pending, rest, screen, -, -, -, rfl⟩ := step_deliver h
          cases ok <;> exact ⟨List.prefix_rfl, hv⟩
      | renderLoadingRow | handleRefresh | store | didReceiveMemoryWarning =>
          obtain ⟨screen, -, rfl⟩ := withScreen_eq h
          exact ⟨List.prefix_rfl, hv⟩
  | viewWillAppear =>
      obtain rfl := Option.some.inj h
      refine ⟨?_, forgotten_viewWillAppear hv⟩
      unfold View.viewWillAppear
      split
      · exact List.prefix_append _ _
      · exact List.prefix_rfl
  | mainQueue =>
      obtain ⟨-, h⟩ := Option.ite_none_left_eq_some.mp h
      obtain rfl := Option.some.inj h
      exact ⟨List.prefix_rfl, hv⟩

/-- **Labels.** From a screen without labels on, whatever is loaded, refreshed, stored, answered
or forgotten in between: the screen asks to sign up exactly when it last appeared to a guest, in
every state, exactly as long as no user sees it with a label that the screen does not know any
more and no failed refresh takes a guest's only one. Such labels stay for good. -/
theorem labels_right (parses : String → Bool)
    (pages : List String → String → Nat → List Article) (screen : Screen) (es : List Event) :
    ((machine parses pages).Always Asks { screen } es ↔
      (machine parses pages).Meets KeepsAsking { screen } es) ∧
    ∀ v ∈ (machine parses pages).run { screen } es, ∀ later,
      (machine parses pages).Always
        (fun v' => v.otherLabels <+: v'.otherLabels ∧ ∀ hidden ∈ v'.otherLabels, hidden = false)
        v later := by
  have hstart : Forgotten { screen } := fun _ hmem => absurd hmem List.not_mem_nil
  constructor
  · refine (machine parses pages).always_iff_meets (I := Forgotten) ?_ ?_ hstart ?_
    · intro v e v' hv hasks h
      exact (forgotten_step hv h).2
    · intro v e v' hv hasks h
      exact asks_step hv hasks h
    · exact fun _ hguest => by cases hguest
  · intro v hrun later
    have hv : Forgotten v := (machine parses pages).run_invariant (G := fun _ _ => True)
      (fun hv _ h => (forgotten_step hv h).2) hstart
      ((machine parses pages).meets_of_forall (fun _ _ => trivial) _) hrun
    refine (machine parses pages).always_of_meets (G := fun _ _ => True)
      (I := fun v' => v.otherLabels <+: v'.otherLabels ∧ Forgotten v') ?_ id ⟨List.prefix_rfl, hv⟩
      ((machine parses pages).meets_of_forall (fun _ _ => trivial) v)
    rintro u e u' ⟨hkept, hu⟩ - h
    obtain ⟨hgrown, hu'⟩ := forgotten_step hu h
    exact ⟨hkept.trans hgrown, hu'⟩

-- A guest looks twice and signs up, and the first label stays.
example : ¬ (machine (fun _ => true) fun _ _ _ => []).Meets KeepsAsking { screen := { app := {} } }
    [.viewWillAppear, .viewWillAppear, .act (.store .firstname (some (.string "Ada"))),
      .viewWillAppear] := by
  decide

end Labels

/-! ## The control -/

section Control

variable {parses : String → Bool} {pages : List String → String → Nat → List Article}
  {v v' : View} {s s' : Screen}

theorem getAllNews_none {replaces : Bool} (hsettings : settings s.app = none)
    (h : s.getAllNews parses replaces = some s') : s'.inFlight = s.inFlight := by
  have hinterests : Networking.storedInterests s.app = none :=
    Option.map_eq_none_iff.mp hsettings
  unfold Screen.getAllNews at h
  simp only [Callback.exec_apply, Networking.getAllNews_apply, hinterests] at h
  obtain rfl := Option.some.inj h
  exact List.append_nil _

theorem awaited_getAllNews {replaces : Bool} {mainQueue : List MainPart}
    (h : s.getAllNews parses replaces = some s') : Awaited s'.inFlight mainQueue ↔
      (replaces = true ∧ (settings s.app).isSome) ∨ Awaited s.inFlight mainQueue := by
  cases hsettings : settings s.app with
  | none => simp [getAllNews_none hsettings h]
  | some stored =>
      obtain rfl := getAllNews_eq hsettings h
      unfold Awaited
      simp only [List.mem_append, List.mem_singleton, or_and_right, exists_or, exists_eq_left,
        Option.isSome_some, and_true]
      rw [or_comm (a := ∃ _, _), or_assoc]

theorem awaited_store {key : Key} {value : Option Value} {mainQueue : List MainPart}
    (h : s.act parses pages (.store key value) = some s')
    (hs : Awaited s.inFlight mainQueue) : Awaited s'.inFlight mainQueue := by
  change (s.withStored key value).observeValue parses key = some s' at h
  unfold Screen.observeValue at h
  split at h
  · exact (awaited_getAllNews h).mpr (Or.inr hs)
  · obtain rfl := Option.some.inj h
    exact hs

theorem awaited_onNews {screen : Screen} {replaces ok : Bool} :
    (refreshControl parses pages).awaited ({ v with screen }.onNews replaces ok) ↔
      Awaited screen.inFlight v.mainQueue ∨ (ok = true ∧ replaces = true) := by
  cases ok <;> simp [refreshControl, View.onNews, Awaited, or_assoc]

theorem awaited_deliver {i : Nat} {ok : Bool}
    (h : v.step parses pages (.act (.deliver i ok)) = some v')
    (hv : Awaited v.screen.inFlight v.mainQueue) :
    (refreshControl parses pages).awaited v' ↔ KeepsRefreshing v (.act (.deliver i ok)) := by
  obtain ⟨pending, rest, screen, hpick, -, rfl, rfl⟩ := step_deliver h
  rw [awaited_onNews]
  cases ok with
  | false => simp [KeepsRefreshing, hpick]
  | true =>
      refine iff_of_true ?_ trivial
      rcases hv with ⟨waiting, hmem, hreplaces⟩ | hqueued
      · rcases List.mem_cons.mp ((pick_perm hpick).mem_iff.mp hmem) with rfl | hmem
        · exact Or.inr ⟨rfl, hreplaces⟩
        · exact Or.inl (Or.inl ⟨waiting, hmem, hreplaces⟩)
      · exact Or.inl (Or.inr hqueued)

theorem awaited_mainQueue (h : v.step parses pages .mainQueue = some v')
    (hstops : (refreshControl parses pages).stops v .mainQueue = false)
    (hv : Awaited v.screen.inFlight v.mainQueue) :
    (refreshControl parses pages).awaited v' := by
  obtain ⟨-, h⟩ := Option.ite_none_left_eq_some.mp h
  obtain rfl := Option.some.inj h
  refine hv.imp_right fun hqueued => ?_
  cases hqueue : v.mainQueue with
  | nil => simp [hqueue] at hqueued
  | cons part rest =>
      have hhead : part ≠ .reloadData true := by
        simpa [refreshControl, hqueue] using hstops
      rw [hqueue] at hqueued
      exact (List.mem_cons.mp hqueued).resolve_left hhead.symm

theorem awaited_step {e : Event} (h : (machine parses pages).step v e = some v')
    (hstops : (refreshControl parses pages).stops v e = false)
    (hv : (refreshControl parses pages).starts e = true ∨
      (refreshControl parses pages).awaited v) :
    (refreshControl parses pages).awaited v' ↔ KeepsRefreshing v e := by
  cases e with
  | act action =>
      cases action with
      | handleRefresh =>
          obtain ⟨screen, hact, rfl⟩ := withScreen_eq h
          refine (awaited_getAllNews hact).trans ?_
          simp [KeepsRefreshing, settings]
      | deliver i ok => exact awaited_deliver h (hv.resolve_left Bool.false_ne_true)
      | renderLoadingRow =>
          obtain ⟨screen, hact, rfl⟩ := withScreen_eq h
          obtain ⟨-, hact⟩ := Option.ite_none_right_eq_some.mp hact
          refine iff_of_true ((awaited_getAllNews hact).mpr (Or.inr ?_)) trivial
          exact hv.resolve_left Bool.false_ne_true
      | store key value =>
          obtain ⟨screen, hact, rfl⟩ := withScreen_eq h
          exact iff_of_true (awaited_store hact (hv.resolve_left Bool.false_ne_true)) trivial
      | didReceiveMemoryWarning =>
          obtain rfl := Option.some.inj h
          exact iff_of_true (hv.resolve_left Bool.false_ne_true) trivial
  | viewWillAppear =>
      obtain rfl := Option.some.inj h
      refine iff_of_true ?_ trivial
      have hawaited := hv.resolve_left Bool.false_ne_true
      unfold View.viewWillAppear
      split <;> exact hawaited
  | mainQueue =>
      exact iff_of_true (awaited_mainQueue h hstops (hv.resolve_left Bool.false_ne_true)) trivial

/-- **Refresh control.** From an idle control on, whatever is answered, stored or scrolled in
between: the control spins only while a refresh that ends it is under way, in every state,
exactly as long as nobody without interests pulls it and no refresh fails as the last one. -/
theorem refreshControl_attended (parses : String → Bool)
    (pages : List String → String → Nat → List Article) (screen : Screen) (es : List Event) :
    (refreshControl parses pages).machine.Always (refreshControl parses pages).Attended
        ({ screen }, false) es ↔
      (refreshControl parses pages).machine.Meets
        ((refreshControl parses pages).Guarded KeepsRefreshing) ({ screen }, false) es :=
  Indicator.attended_iff (K := fun _ => True) (fun _ _ => trivial)
    (fun _ h hstops hv => awaited_step h hstops hv) trivial

end Control

end NewsFlash.Pages.ForYouView
