import NewsFlash.Library.InFlight
import NewsFlash.Library.Machine
import NewsFlash.Models.Networking

/-!
# The articles of a category screen

Every category screen shows `News.shared.categoryNews`. An answer is stored there
whichever screen asked for it, and the `deinit` of a screen empties the array
whenever it runs. `Undisturbed` says exactly which steps leave the visible screen
with articles of its own category.
-/

namespace NewsFlash.Screens.Category

open NewsFlash.Library NewsFlash.Models NewsFlash.Models.Networking

/-! ## The screens -/

structure Screen where
  category : String
  alive : Bool := true
deriving DecidableEq, Repr

/-- A request in flight and the screen whose completion waits for it. -/
structure Pending where
  request : CategoryRequest
  screen : Nat
deriving DecidableEq, Repr

/-- The visible screen is served if it got a successful answer and no memory warning
has come since. `obtained` are all successful answers, each with the category that
was asked for. -/
structure World where
  app : App
  screens : List Screen := []
  visible : Option Nat := none
  inFlight : List Pending := []
  served : Bool := false
  obtained : List (String × List Article) := []

inductive Action where
  | didSelectRow (category : String)
  | back
  | handleRefresh
  | deliver (i : Nat) (reply : DataReply)
  | didReceiveMemoryWarning
  | deinit (k : Nat)

namespace World

def categoryNews (w : World) : List Article := w.app.news.categoryNews

def clear (w : World) : World :=
  { w with app := { w.app with news := { w.app.news with categoryNews := [] } } }

end World

section Service

/-! `parses` is `URL(string:)`. -/

variable (parses : String → Bool)

def CategoryViewController.loadNewsByCategory (w : World) (k : Nat) (category : String) : World :=
  let includeCountry :=
    ((UserRepository.fetch .isCountrySpecific w.app.defaults).bind Value.asBool).getD false
  let code : Callback App CategoryRequest Unit Unit :=
    Networking.getNewsByCategory parses category includeCountry
  let (_, t) := code.exec w.app
  { w with app := t.store, inFlight := w.inFlight ++ t.issued.map fun request => ⟨request, k⟩ }

/-- The completion stores the answer before it uses its screen, which it does not own. -/
def CategoryViewController.loadNewsByCategory.onNews (data : Option (List Article)) :
    Callback App CategoryRequest Unit Unit :=
  App.modifyNews fun news => { news with categoryNews := data.getD [] }

open CategoryViewController

namespace World

def step (w : World) : Action → Option World
  -- Explore is shown while no category screen is.
  | .didSelectRow category =>
      if w.visible = none then
        let k := w.screens.length
        let w' := { w with
          screens := w.screens ++ [{ category }]
          visible := some k
          served := false }
        some (loadNewsByCategory parses w' k category)
      else none
  | .back =>
      if w.visible = none then none else some { w with visible := none, served := false }
  | .handleRefresh => w.visible.bind fun k => w.screens[k]?.map fun screen =>
      loadNewsByCategory parses w k screen.category
  | .deliver i reply => (pick w.inFlight i).map fun (pending, rest) =>
      let (_, t) := (onData loadNewsByCategory.onNews reply).exec w.app
      { w with
        app := t.store
        inFlight := rest
        served := w.served || (reply.articles.isSome && w.visible = some pending.screen)
        obtained := w.obtained ++
          reply.articles.toList.map fun articles => (pending.request.category, articles) }
  | .didReceiveMemoryWarning =>
      some { (if w.screens.any (·.alive) then w.clear else w) with served := false }
  -- Image loads and saves may hold a left screen for as long as they take.
  | .deinit k =>
      if w.visible ≠ some k ∧ w.screens[k]?.any (·.alive) then
        some { w.clear with
          screens := w.screens.modify k fun screen => { screen with alive := false } }
      else none

end World

def machine : Machine World Action where
  step := World.step parses

end Service

/-- A served screen shows an answer that was obtained for its category. -/
def Shown (w : World) : Prop :=
  w.served = true → ∀ k ∈ w.visible, ∀ screen ∈ w.screens[k]?,
    (screen.category, w.categoryNews) ∈ w.obtained

/-- While a screen is served, an answer is one for its category or brings a list
that was obtained for it, and a list that empties the array was obtained for it. -/
def Undisturbed (w : World) : Action → Prop
  | .deliver i reply => ∀ picked ∈ pick w.inFlight i,
      w.served = true → ∀ k ∈ w.visible, ∀ screen ∈ w.screens[k]?,
        match reply.articles with
        | some articles => picked.1.request.category = screen.category ∨
            (screen.category, articles) ∈ w.obtained
        | none => (screen.category, []) ∈ w.obtained
  | .deinit _ => w.served = true → ∀ k ∈ w.visible, ∀ screen ∈ w.screens[k]?,
      (screen.category, []) ∈ w.obtained
  | _ => True

/-! ## What one step does -/

section Steps

variable {parses : String → Bool} {w w' : World}

open CategoryViewController

def Tagged (w : World) : Prop :=
  ∀ pending ∈ w.inFlight, ∃ screen, w.screens[pending.screen]? = some screen ∧
    pending.request.category = screen.category

theorem loadNewsByCategory_eq (w : World) (k : Nat) (category : String) :
    loadNewsByCategory parses w k category = { w with
      inFlight := w.inFlight ++
        if parses (CategoryRequest.url ⟨category⟩) then [⟨⟨category⟩, k⟩] else [] } := by
  simp only [loadNewsByCategory, Callback.exec_apply, getNewsByCategory_apply]
  split <;> rfl

theorem onNews_store (reply : DataReply) (app : App) :
    ((onData loadNewsByCategory.onNews reply).exec app).2.store =
      { app with news := { app.news with categoryNews := reply.articles.getD [] } } := by
  rw [onData_eq]
  rfl

theorem tagged_loadNewsByCategory {k : Nat} (screen : Screen) (htagged : Tagged w)
    (hscreen : w.screens[k]? = some screen) :
    Tagged (loadNewsByCategory parses w k screen.category) := by
  rw [loadNewsByCategory_eq]
  intro pending hmem
  rcases List.mem_append.mp hmem with hmem | hmem
  · exact htagged pending hmem
  · split at hmem
    · obtain rfl := List.mem_singleton.mp hmem
      exact ⟨screen, hscreen, rfl⟩
    · cases hmem

theorem tagged_didSelectRow {category : String} (htagged : Tagged w) :
    Tagged { w with
      screens := w.screens ++ [{ category }]
      visible := some w.screens.length
      served := false } := by
  intro pending hmem
  obtain ⟨screen, hscreen, hcategory⟩ := htagged pending hmem
  refine ⟨screen, ?_, hcategory⟩
  change (w.screens ++ [_])[pending.screen]? = some screen
  rw [List.getElem?_append_left (List.getElem?_eq_some_iff.mp hscreen).1]
  exact hscreen

theorem tagged_deinit {k : Nat} (htagged : Tagged w) :
    Tagged { w.clear with
      screens := w.screens.modify k fun screen => { screen with alive := false } } := by
  intro pending hmem
  obtain ⟨screen, hscreen, hcategory⟩ := htagged pending hmem
  change ∃ screen', (w.screens.modify k _)[pending.screen]? = some screen' ∧ _
  rw [List.getElem?_modify, hscreen]
  by_cases hk : k = pending.screen
  · exact ⟨{ screen with alive := false }, by simp [hk], hcategory⟩
  · exact ⟨screen, by simp [hk], hcategory⟩

theorem tagged_step {a : Action} (htagged : Tagged w)
    (h : (machine parses).step w a = some w') : Tagged w' := by
  cases a with
  | didSelectRow category =>
      obtain ⟨-, h⟩ := Option.ite_none_right_eq_some.mp h
      obtain rfl := Option.some.inj h
      refine tagged_loadNewsByCategory { category } (tagged_didSelectRow htagged) ?_
      exact List.getElem?_concat_length
  | back =>
      obtain ⟨-, h⟩ := Option.ite_none_left_eq_some.mp h
      obtain rfl := Option.some.inj h
      exact htagged
  | handleRefresh =>
      obtain ⟨k, -, h⟩ := Option.bind_eq_some_iff.mp h
      obtain ⟨screen, hscreen, rfl⟩ := Option.map_eq_some_iff.mp h
      exact tagged_loadNewsByCategory screen htagged hscreen
  | deliver i reply =>
      obtain ⟨⟨pending, rest⟩, hpick, rfl⟩ := Option.map_eq_some_iff.mp h
      exact fun other hmem => htagged other (mem_of_mem_pick hpick hmem)
  | didReceiveMemoryWarning =>
      obtain rfl := Option.some.inj h
      intro pending hmem
      cases halive : w.screens.any (·.alive) <;> simp only [halive] at hmem ⊢ <;>
        exact htagged pending hmem
  | deinit k =>
      obtain ⟨-, h⟩ := Option.ite_none_right_eq_some.mp h
      obtain rfl := Option.some.inj h
      exact tagged_deinit htagged

theorem shown_of_not_served (h : w.served = false) : Shown w := by
  intro hserved
  rw [h] at hserved
  cases hserved

theorem deliver_eq_some {i : Nat} {reply : DataReply}
    (h : (machine parses).step w (.deliver i reply) = some w') :
    ∃ pending rest, pick w.inFlight i = some (pending, rest) ∧ w' = { w with
      app := { w.app with news :=
        { w.app.news with categoryNews := reply.articles.getD [] } }
      inFlight := rest
      served := w.served || (reply.articles.isSome && w.visible = some pending.screen)
      obtained := w.obtained ++
        reply.articles.toList.map fun articles => (pending.request.category, articles) } := by
  obtain ⟨⟨pending, rest⟩, hpick, rfl⟩ := Option.map_eq_some_iff.mp h
  refine ⟨pending, rest, hpick, ?_⟩
  rw [← onNews_store]

/-- The answer that serves a screen is its own. -/
theorem shown_deliver_first {i : Nat} {reply : DataReply} (htagged : Tagged w)
    (hserved : w.served = false)
    (h : (machine parses).step w (.deliver i reply) = some w') : Shown w' := by
  obtain ⟨pending, rest, hpick, rfl⟩ := deliver_eq_some h
  intro hserved' k hk screen hscreen
  rw [hserved, Bool.false_or, Bool.and_eq_true, decide_eq_true_eq] at hserved'
  obtain ⟨hsuccess, hown⟩ := hserved'
  obtain ⟨articles, harticles⟩ := Option.isSome_iff_exists.mp hsuccess
  obtain rfl : pending.screen = k := Option.some.inj (hown.symm.trans hk)
  obtain ⟨screen', hscreen', hcategory⟩ := htagged pending (mem_of_pick hpick)
  obtain rfl : screen' = screen := Option.some.inj (hscreen'.symm.trans hscreen)
  simp only [World.categoryNews, harticles, hcategory, Option.getD_some, Option.toList_some,
    List.map_cons, List.map_nil]
  exact List.mem_append_right w.obtained (List.mem_singleton_self _)

theorem shown_deliver_served {i : Nat} {reply : DataReply} (hserved : w.served = true)
    (h : (machine parses).step w (.deliver i reply) = some w') :
    Shown w' ↔ Undisturbed w (.deliver i reply) := by
  obtain ⟨pending, rest, hpick, rfl⟩ := deliver_eq_some h
  simp only [Shown, Undisturbed, hpick, Option.mem_some_iff, forall_eq', hserved, Bool.true_or,
    forall_true_left, World.categoryNews]
  refine forall₂_congr fun k hk => forall₂_congr fun screen hscreen => ?_
  cases reply.articles with
  | none => simp
  | some articles =>
      simp only [Option.toList_some, List.map_cons, List.map_nil, Option.getD_some,
        List.mem_append, List.mem_singleton, Prod.mk.injEq, and_true]
      rw [or_comm, eq_comm]

theorem shown_deinit {k : Nat} (h : (machine parses).step w (.deinit k) = some w') :
    Shown w' ↔ Undisturbed w (.deinit k) := by
  obtain ⟨⟨hvisible, -⟩, h⟩ := Option.ite_none_right_eq_some.mp h
  obtain rfl := Option.some.inj h
  refine imp_congr_right fun _ => forall₂_congr fun j hj => ?_
  have hne : k ≠ j := by
    rintro rfl
    exact hvisible hj
  change (∀ screen ∈ (w.screens.modify k _)[j]?, _) ↔ _
  rw [List.getElem?_modify_ne _ w.screens hne]
  exact Iff.rfl

/-- A step from a world that shows the right articles leads to one that does exactly
when it is undisturbed. -/
theorem shown_step {a : Action} (htagged : Tagged w) (hshown : Shown w)
    (h : (machine parses).step w a = some w') : Shown w' ↔ Undisturbed w a := by
  cases a with
  | didSelectRow category =>
      obtain ⟨-, h⟩ := Option.ite_none_right_eq_some.mp h
      obtain rfl := Option.some.inj h
      rw [loadNewsByCategory_eq]
      exact iff_of_true (shown_of_not_served rfl) trivial
  | back =>
      obtain ⟨-, h⟩ := Option.ite_none_left_eq_some.mp h
      obtain rfl := Option.some.inj h
      exact iff_of_true (shown_of_not_served rfl) trivial
  | handleRefresh =>
      obtain ⟨k, -, h⟩ := Option.bind_eq_some_iff.mp h
      obtain ⟨screen, -, rfl⟩ := Option.map_eq_some_iff.mp h
      rw [loadNewsByCategory_eq]
      exact iff_of_true hshown trivial
  | deliver i reply =>
      cases hserved : w.served with
      | true => exact shown_deliver_served hserved h
      | false =>
          refine iff_of_true (shown_deliver_first htagged hserved h) ?_
          intro _ _ hserved'
          rw [hserved] at hserved'
          cases hserved'
  | didReceiveMemoryWarning =>
      obtain rfl := Option.some.inj h
      exact iff_of_true (shown_of_not_served rfl) trivial
  | deinit k => exact shown_deinit h

end Steps

/-! ## Each screen shows its category -/

/-- **Category screens.** For every stored profile, and however screens are opened,
left, refreshed and torn down and answers arrive, the visible screen shows an answer for
its category, once it got one, exactly as long as every step leaves it undisturbed. -/
theorem categoryNews_own {parses : String → Bool} {app₀ : App} {as : List Action} :
    (machine parses).Always Shown { app := app₀ } as ↔
      (machine parses).Meets Undisturbed { app := app₀ } as := by
  have htagged : Tagged { app := app₀ } := by
    intro pending hmem
    cases hmem
  exact (machine parses).always_iff_meets (fun htagged _ h => tagged_step htagged h)
    (fun htagged hshown h => shown_step htagged hshown h) htagged (shown_of_not_served rfl)

def found (title : String) : DataReply := ⟨some (.articles [.titled title]), false⟩

/-- The images of the first screen's rows still hold it when it is left; the answer
to its refresh comes after that of the second screen. -/
def refreshOvertaken : List Action :=
  [.didSelectRow "business", .deliver 0 (found "b"), .handleRefresh, .back,
    .didSelectRow "sports", .deliver 1 (found "s"), .deliver 0 (found "c")]

theorem categoryNews_foreign :
    ¬ ∀ (parses : String → Bool) (app₀ : App) (as : List Action),
      (machine parses).Always Shown { app := app₀ } as := by
  intro h
  have hends : ((machine fun _ => true).run { app := {} } refreshOvertaken).isSome := by
    decide +kernel
  have hforeign : ∀ w ∈ (machine fun _ => true).run { app := {} } refreshOvertaken,
      w.served = true ∧ w.visible = some 1 ∧ w.screens[1]? = some { category := "sports" } ∧
        ("sports", w.categoryNews) ∉ w.obtained := by
    decide +kernel
  refine Machine.not_always_of_run _ hends (fun w hw hshown => ?_)
    (h (fun _ => true) {} refreshOvertaken)
  obtain ⟨hserved, hvisible, hscreen, hnotObtained⟩ := hforeign w hw
  exact hnotObtained (hshown hserved 1 hvisible _ hscreen)

end NewsFlash.Screens.Category
