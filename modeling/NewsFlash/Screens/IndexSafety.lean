import NewsFlash.Library.InFlight
import NewsFlash.Library.Machine
import NewsFlash.Models.Networking

/-!
# Row and card indices

Four screens show an array of `News.shared` each. Their views remember the count
of the last reload and pass indices below it to handlers that subscript the array
as it is by then. A view that loads no rows until the queued reload has run, a
memory warning and a `deinit` all leave counts behind. `Fits` says exactly which
steps keep every subscript inside its array.
-/

namespace NewsFlash.Screens.IndexSafety

open NewsFlash.Library NewsFlash.Models NewsFlash.Models.Networking

/-! ## Screens and their arrays -/

inductive Kind where
  | forYou | category | saved | flashCards
deriving DecidableEq, Repr

namespace Kind

def array (news : News) : Kind → List Article
  | forYou => news.allNews
  | category => news.categoryNews
  | saved => news.savedNews
  | flashCards => news.topNews

def assign (articles : List Article) (news : News) : Kind → News
  | forYou => { news with allNews := articles }
  | category => { news with categoryNews := articles }
  | saved => { news with savedNews := articles }
  | flashCards => { news with topNews := articles }

@[simp] theorem array_assign_self (articles : List Article) (news : News) (kind : Kind) :
    kind.array (kind.assign articles news) = articles := by
  cases kind <;> rfl

theorem array_assign_ne {kind other : Kind} (h : other ≠ kind) (articles : List Article)
    (news : News) : other.array (kind.assign articles news) = other.array news := by
  cases kind <;> cases other <;> first | rfl | exact absurd rfl h

end Kind

/-- An attached screen is in the view hierarchy. One that was left gets no more
touches, but closures may still keep it alive. -/
inductive Life where
  | attached | left | gone
deriving DecidableEq, Repr

/-- `reported` is the count that the view got at its last reload. -/
structure Screen where
  kind : Kind
  life : Life := .attached
  reported : Nat
  keepLoading : Bool := true
deriving DecidableEq, Repr

/-! ## The handlers -/

inductive Handler where
  | render | select | swipe | save | share
deriving DecidableEq, Repr

namespace Screen

/-- The indices that a view may pass; Koloda asks for the count again when it loads
the next card. -/
def Passes (screen : Screen) (news : News) (handler : Handler) (index : Nat) : Prop :=
  index < screen.reported ∨
    screen.kind = .flashCards ∧ handler = .render ∧ index < news.topNews.length

/-- The indices at which a handler subscripts the array of its screen. -/
def subscripts (screen : Screen) (news : News) (index : Nat) (handler : Handler) : List Nat :=
  match screen.kind, handler with
  | .forYou, .render =>
      if index = news.allNews.length ∧ screen.keepLoading = true then [] else [index]
  -- The guard compares with the array of another screen.
  | .forYou, .select => if index = news.searchResults.length then [] else [index]
  -- The tables read the article when the action is tapped, except for the saved ones.
  | .forYou, .swipe | .category, .swipe | .flashCards, .swipe | .saved, .save => []
  | _, _ => [index]

end Screen

/-! ## Fetches -/

/-- The fetches of the screen at index `k`, named by the completion that waits. -/
inductive Fetch where
  | forYouRefresh (k : Nat)
  | forYouPage (k : Nat)
  | category (k : Nat)
  | saved (k : Nat)
  | savedRefresh (k : Nat)
  | topNews (k : Nat)
deriving DecidableEq, Repr

/-- `queued` are the screens whose reloads wait on the main queue. -/
structure World where
  news : News := {}
  screens : List Screen := []
  inFlight : List Fetch := []
  queued : List Nat := []

namespace World

def assign (w : World) (kind : Kind) (articles : List Article) : World :=
  { w with news := kind.assign articles w.news }

def update (w : World) (k : Nat) (f : Screen → Screen) : World :=
  { w with screens := w.screens.modify k f }

def setKeepLoading (w : World) (k : Nat) (keepLoading : Bool) : World :=
  w.update k fun screen => { screen with keepLoading := keepLoading }

def reloadData (w : World) (k : Nat) : World :=
  w.update k fun screen => { screen with reported := (screen.kind.array w.news).length }

/-- `DispatchQueue.main.async { self.tableView.reloadData() }` -/
def async (w : World) (k : Nat) : World := { w with queued := w.queued ++ [k] }

def isAlive (w : World) (k : Nat) : Bool := w.screens[k]?.any (·.life ≠ .gone)

end World

def ForYouViewController.handleRefresh (w : World) (k : Nat) : Option (List Article) → World
  | some news => ((w.setKeepLoading k true).assign .forYou news).async k
  | none => w.setKeepLoading k false

def ForYouViewController.loadNewsForPage (w : World) (k : Nat) : Option (List Article) → World
  | some news => ((w.setKeepLoading k true).assign .forYou (w.news.allNews ++ news)).async k
  | none => w.setKeepLoading k false

def CategoryViewController.loadNewsByCategory (w : World) (k : Nat)
    (data : Option (List Article)) : World :=
  (w.assign .category (data.getD [])).async k

/-- The first fetch of the saved articles reloads at once: its answer comes on the
main queue. -/
def SavedNewsViewController.viewDidLoad (w : World) (k : Nat)
    (data : Option (List Article)) : World :=
  (w.assign .saved (data.getD [])).reloadData k

def SavedNewsViewController.handleRefresh (w : World) (k : Nat)
    (data : Option (List Article)) : World :=
  (w.assign .saved (data.getD [])).async k

/-- All three fetches of the top news; `resetCurrentCardIndex` reloads as well. -/
def FlashCardsViewController.getTopNews (w : World) (k : Nat)
    (data : Option (List Article)) : World :=
  (w.assign .flashCards (data.getD [])).async k

/-- `deleteRows(at:)` throws unless the count is one less than before. -/
def SavedNewsViewController.deleteRows (w : World) (k : Nat) : Option World :=
  if w.isAlive k ∧ ∀ screen ∈ w.screens[k]?, w.news.savedNews.length + 1 = screen.reported then
    some (w.reloadData k)
  else none

/-- Every completion holds its screen unowned: one that uses it at once needs it alive. -/
def Fetch.complete (w : World) (data : Option (List Article)) : Fetch → Option World
  | forYouRefresh k =>
      if w.isAlive k then some (ForYouViewController.handleRefresh w k data) else none
  | forYouPage k =>
      if w.isAlive k then some (ForYouViewController.loadNewsForPage w k data) else none
  | category k => some (CategoryViewController.loadNewsByCategory w k data)
  | saved k =>
      if w.isAlive k then some (SavedNewsViewController.viewDidLoad w k data) else none
  | savedRefresh k => some (SavedNewsViewController.handleRefresh w k data)
  | topNews k => some (FlashCardsViewController.getTopNews w k data)

def Kind.firstFetch (k : Nat) : Kind → Fetch
  | forYou => .forYouPage k
  | category => .category k
  | saved => .saved k
  | flashCards => .topNews k

def Kind.refreshFetch (k : Nat) : Kind → Fetch
  | forYou => .forYouRefresh k
  | category => .category k
  | saved => .savedRefresh k
  | flashCards => .topNews k

/-! ## Runs of the screens -/

/-- A save or an unsave may come from any screen; `swiped` is the saved screen that
deletes the row, where it asked. The search screen has its own array. -/
inductive Event where
  | enter (kind : Kind)
  | refresh (k : Nat)
  | complete (i : Nat) (data : Option (List Article))
  | reload
  | nextCard (k : Nat)
  | save (article : Article) (error : Bool)
  | unsave (uid : Uid) (url : String) (documents : Option (List DocumentId))
      (swiped : Option Nat)
  | search (results : List Article)
  | memoryWarning
  | leave (k : Nat)
  | teardown (k : Nat)

namespace World

def react (w : World) (code : Callback App (SavedRequest Unit) Unit Unit) : World :=
  { w with news := (code.exec { news := w.news }).2.store.news }

def memoryWarning (news : News) (screens : List Screen) : News :=
  screens.foldl
    (fun news screen => if screen.life = .gone then news else screen.kind.assign [] news) news

def step (w : World) : Event → Option World
  | .enter kind =>
      let screen : Screen := { kind, reported := (kind.array w.news).length }
      some { w with
        screens := w.screens ++ [screen]
        inFlight := w.inFlight ++ [kind.firstFetch w.screens.length] }
  | .refresh k =>
      if w.isAlive k then
        w.screens[k]?.map fun screen =>
          { w with inFlight := w.inFlight ++ [screen.kind.refreshFetch k] }
      else none
  | .complete i data =>
      (pick w.inFlight i).bind fun (fetch, rest) => fetch.complete { w with inFlight := rest } data
  | .reload => match w.queued with
    | [] => none
    | k :: queued =>
        if w.isAlive k then some ({ w with queued := queued }.reloadData k) else none
  -- Cards that were loaded stay, so the deck may now go up to the greater count.
  | .nextCard k => some (w.update k fun screen =>
      if screen.kind = .flashCards then
        { screen with reported := max screen.reported w.news.topNews.length }
      else screen)
  | .save article error => some (w.react (saveArticle.onAdded article (fun _ => pure ()) error))
  | .unsave uid url documents swiped =>
      let w' := w.react (unsaveArticle.onDocuments uid url (fun _ => pure ()) documents)
      match documents, swiped with
      | some _, some k => SavedNewsViewController.deleteRows w' k
      | _, _ => some w'
  | .search results => some { w with news := { w.news with searchResults := results } }
  | .memoryWarning => some { w with news := memoryWarning w.news w.screens }
  | .leave k => some (w.update k fun screen =>
      { screen with life := if screen.life = .attached then .left else screen.life })
  | .teardown k => match w.screens[k]? with
    | some screen =>
        if screen.life = .left then
          some ((w.assign screen.kind []).update k fun screen => { screen with life := .gone })
        else none
    | none => none

end World

def machine : Machine World Event where
  step := World.step

/-- Every index that the view of an attached screen may pass to a handler keeps the
handler inside its array. -/
def Safe (w : World) : Prop :=
  ∀ screen ∈ w.screens, screen.life = .attached →
    ∀ handler index, screen.Passes w.news handler index →
      ∀ i ∈ screen.subscripts w.news index handler, i < (screen.kind.array w.news).length

/-! ## When a step fits -/

def Screen.Within (kind : Kind) (n : Nat) (screen : Screen) : Prop :=
  screen.life = .attached → screen.kind = kind → screen.reported ≤ n

/-- `n` articles cover all that the attached views of the kind may ask for. -/
def World.Covered (w : World) (kind : Kind) (n : Nat) : Prop :=
  ∀ screen ∈ w.screens, screen.Within kind n

def World.CoveredBut (w : World) (k : Nat) (kind : Kind) (n : Nat) : Prop :=
  ∀ j ≠ k, ∀ screen ∈ w.screens[j]?, screen.Within kind n

/-- A list that replaces an array covers the views of the array. A page is appended;
the first fetch of a saved screen reloads it. -/
def Fetch.Fits (w : World) (data : Option (List Article)) : Fetch → Prop
  | forYouRefresh _ => ∀ news ∈ data, w.Covered .forYou news.length
  | forYouPage _ => True
  | category _ => w.Covered .category (data.getD []).length
  | saved k => w.CoveredBut k .saved (data.getD []).length
  | savedRefresh _ => w.Covered .saved (data.getD []).length
  | topNews _ => w.Covered .flashCards (data.getD []).length

/-- What a step leaves of an array covers the views of the array. -/
def Fits (w : World) : Event → Prop
  | .complete i data => ∀ picked ∈ pick w.inFlight i, picked.1.Fits w data
  | .unsave _ url documents swiped => documents.isSome →
      let rest := w.news.savedNews.filter fun article => article.url != some url
      match swiped with
      | some k => w.CoveredBut k .saved rest.length
      | none => w.Covered .saved rest.length
  | .memoryWarning => ∀ kind, w.Covered kind 0
  | .teardown k => ∀ screen ∈ w.screens[k]?, w.Covered screen.kind 0
  | _ => True

/-! ## Views and the lengths of their arrays -/

section Views

variable {w w' : World} {kind : Kind} {k n : Nat}

theorem eq_of_mem_subscripts {screen : Screen} {news : News} {handler : Handler} {index i : Nat}
    (h : i ∈ screen.subscripts news index handler) : i = index := by
  obtain ⟨kind, life, reported, keepLoading⟩ := screen
  cases kind <;> cases handler <;> simp [Screen.subscripts] at h <;> grind

theorem subscripts_share (screen : Screen) (news : News) (index : Nat) :
    screen.subscripts news index .share = [index] := by
  obtain ⟨kind, life, reported, keepLoading⟩ := screen
  cases kind <;> rfl

/-- The screens are safe exactly when every attached view goes by at most the present
length of its array. -/
theorem safe_iff : Safe w ↔ ∀ kind : Kind, w.Covered kind (kind.array w.news).length := by
  constructor
  · rintro hsafe kind screen hmem hlife rfl
    by_contra hlt
    have hpasses : screen.Passes w.news .share (screen.kind.array w.news).length :=
      Or.inl (Nat.lt_of_not_le hlt)
    have hshare := hsafe screen hmem hlife .share _ hpasses (screen.kind.array w.news).length
      (by rw [subscripts_share]; exact List.mem_singleton_self _)
    exact Nat.lt_irrefl _ hshare
  · intro hcovered screen hmem hlife handler index hpasses i hi
    obtain rfl := eq_of_mem_subscripts hi
    rcases hpasses with hreported | ⟨hkind, -, hcount⟩
    · exact Nat.lt_of_lt_of_le hreported (hcovered screen.kind screen hmem hlife rfl)
    · rw [hkind]
      exact hcount

theorem Screen.Within.mono {screen : Screen} {m : Nat} (h : screen.Within kind m) (hmn : m ≤ n) :
    screen.Within kind n :=
  fun hlife hkind => Nat.le_trans (h hlife hkind) hmn

theorem covered_iff (k : Nat) : w.Covered kind n ↔
    w.CoveredBut k kind n ∧ ∀ screen ∈ w.screens[k]?, screen.Within kind n := by
  constructor
  · intro hcovered
    refine ⟨fun j _ screen hscreen => ?_, fun screen hscreen => ?_⟩
    · exact hcovered screen (List.mem_of_getElem? hscreen)
    · exact hcovered screen (List.mem_of_getElem? hscreen)
  · rintro ⟨hbut, hk⟩ screen hmem
    obtain ⟨j, hj⟩ := List.mem_iff_getElem?.mp hmem
    by_cases hjk : j = k
    · subst hjk
      exact hk screen hj
    · exact hbut j hjk screen hj

theorem coveredBut_update (f : Screen → Screen) :
    (w.update k f).CoveredBut k kind n ↔ w.CoveredBut k kind n := by
  have hothers : ∀ j ≠ k, (w.screens.modify k f)[j]? = w.screens[j]? := by
    intro j hj
    rw [List.getElem?_modify_ne f w.screens (Ne.symm hj)]
  refine forall₂_congr fun j hj => ?_
  rw [World.update, hothers j hj]

theorem covered_update (f : Screen → Screen) : (w.update k f).Covered kind n ↔
    w.CoveredBut k kind n ∧ ∀ screen ∈ w.screens[k]?, (f screen).Within kind n := by
  rw [covered_iff k, coveredBut_update]
  refine and_congr_right fun _ => ?_
  rw [World.update, List.getElem?_modify_eq]
  cases w.screens[k]? <;> simp

theorem covered_update_of_within {f : Screen → Screen}
    (hf : ∀ screen ∈ w.screens[k]?, (f screen).Within kind n ↔ screen.Within kind n) :
    (w.update k f).Covered kind n ↔ w.Covered kind n := by
  rw [covered_update, covered_iff k]
  exact and_congr_right fun _ => forall₂_congr hf

/-- Where the screens stay and one array is replaced, the new one has to cover its views. -/
theorem safe_replaced {articles : List Article} (hsafe : Safe w)
    (hscreens : ∀ kind n, w'.Covered kind n ↔ w.Covered kind n)
    (hself : kind.array w'.news = articles)
    (hother : ∀ other ≠ kind, Kind.array w'.news other = Kind.array w.news other) :
    Safe w' ↔ w.Covered kind articles.length := by
  rw [safe_iff] at hsafe ⊢
  constructor
  · intro hcovered
    have hkind := hcovered kind
    rwa [hself, hscreens] at hkind
  · intro hkind other
    rw [hscreens]
    by_cases hne : other = kind
    · subst hne
      rwa [hself]
    · rw [hother other hne]
      exact hsafe other

theorem safe_reloadData : Safe (w.reloadData k) ↔
    ∀ kind : Kind, w.CoveredBut k kind (kind.array w.news).length := by
  rw [safe_iff]
  refine forall_congr' fun kind => ?_
  change (w.reloadData k).Covered kind (kind.array w.news).length ↔ _
  rw [World.reloadData, covered_update]
  refine and_iff_left fun screen _ hlife hkind => ?_
  obtain rfl := hkind
  exact Nat.le_refl _

theorem safe_replaced_reloadData {articles : List Article} (hsafe : Safe w)
    (hscreens : w'.screens = w.screens) (hself : kind.array w'.news = articles)
    (hother : ∀ other ≠ kind, Kind.array w'.news other = Kind.array w.news other) :
    Safe (w'.reloadData k) ↔ w.CoveredBut k kind articles.length := by
  have hbut : ∀ kind n, w'.CoveredBut k kind n ↔ w.CoveredBut k kind n := by
    intro kind n
    rw [World.CoveredBut, World.CoveredBut, hscreens]
  rw [safe_iff] at hsafe
  rw [safe_reloadData]
  constructor
  · intro hcovered
    have hkind := hcovered kind
    rwa [hself, hbut] at hkind
  · intro hkind other
    rw [hbut]
    by_cases hne : other = kind
    · subst hne
      rwa [hself]
    · rw [hother other hne]
      exact ((covered_iff k).mp (hsafe other)).1

end Views

/-! ## What one step does -/

section Steps

variable {w w' : World}

theorem safe_congr (hscreens : w'.screens = w.screens)
    (harrays : ∀ kind : Kind, kind.array w'.news = kind.array w.news) : Safe w' ↔ Safe w := by
  rw [safe_iff, safe_iff]
  refine forall_congr' fun kind => ?_
  rw [World.Covered, World.Covered, hscreens, harrays]

theorem covered_setKeepLoading {kind : Kind} {k n : Nat} (keepLoading : Bool) :
    (w.setKeepLoading k keepLoading).Covered kind n ↔ w.Covered kind n :=
  covered_update_of_within fun _ _ => Iff.rfl

theorem safe_assign_async {kind : Kind} {k : Nat} {articles : List Article} (hsafe : Safe w) :
    Safe ((w.assign kind articles).async k) ↔ w.Covered kind articles.length :=
  safe_replaced hsafe (fun _ _ => Iff.rfl) (Kind.array_assign_self articles w.news kind)
    (fun _ hne => Kind.array_assign_ne hne articles w.news)

theorem safe_setKeepLoading_assign_async {kind : Kind} {k : Nat} {articles : List Article}
    (hsafe : Safe w) :
    Safe (((w.setKeepLoading k true).assign kind articles).async k) ↔
      w.Covered kind articles.length :=
  safe_replaced hsafe (fun _ _ => covered_setKeepLoading true)
    (Kind.array_assign_self articles w.news kind)
    (fun _ hne => Kind.array_assign_ne hne articles w.news)

theorem safe_setKeepLoading {k : Nat} (keepLoading : Bool) (hsafe : Safe w) :
    Safe (w.setKeepLoading k keepLoading) := by
  rw [safe_iff] at hsafe ⊢
  intro kind
  exact (covered_setKeepLoading keepLoading).mpr (hsafe kind)

theorem safe_complete {fetch : Fetch} {data : Option (List Article)} (hsafe : Safe w)
    (h : fetch.complete w data = some w') : Safe w' ↔ fetch.Fits w data := by
  cases fetch with
  | forYouRefresh k =>
      obtain ⟨-, h⟩ := Option.ite_none_right_eq_some.mp h
      obtain rfl := Option.some.inj h
      cases data with
      | none => exact iff_of_true (safe_setKeepLoading false hsafe) (by simp [Fetch.Fits])
      | some news =>
          refine (safe_setKeepLoading_assign_async hsafe).trans ?_
          simp [Fetch.Fits]
  | forYouPage k =>
      obtain ⟨-, h⟩ := Option.ite_none_right_eq_some.mp h
      obtain rfl := Option.some.inj h
      refine iff_of_true ?_ trivial
      cases data with
      | none => exact safe_setKeepLoading false hsafe
      | some news =>
          refine (safe_setKeepLoading_assign_async hsafe).mpr fun screen hmem => ?_
          have hshown : w.Covered .forYou w.news.allNews.length := safe_iff.mp hsafe .forYou
          apply (hshown screen hmem).mono
          rw [List.length_append]
          omega
  | category k | savedRefresh k | topNews k =>
      obtain rfl := Option.some.inj h
      exact safe_assign_async hsafe
  | saved k =>
      obtain ⟨-, h⟩ := Option.ite_none_right_eq_some.mp h
      obtain rfl := Option.some.inj h
      exact safe_replaced_reloadData hsafe rfl rfl
        (fun _ hne => Kind.array_assign_ne hne (data.getD []) w.news)

theorem safe_enter {kind : Kind} (hsafe : Safe w) (h : w.step (.enter kind) = some w') :
    Safe w' := by
  obtain rfl := Option.some.inj h
  rw [safe_iff] at hsafe ⊢
  intro other screen hmem
  rcases List.mem_append.mp hmem with hmem | hmem
  · exact hsafe other screen hmem
  · obtain rfl := List.mem_singleton.mp hmem
    rintro - rfl
    exact Nat.le_refl _

theorem safe_refresh {k : Nat} (hsafe : Safe w) (h : w.step (.refresh k) = some w') :
    Safe w' := by
  obtain ⟨-, h⟩ := Option.ite_none_right_eq_some.mp h
  obtain ⟨screen, -, rfl⟩ := Option.map_eq_some_iff.mp h
  exact (safe_congr rfl (fun _ => rfl)).mpr hsafe

theorem safe_reload (hsafe : Safe w) (h : w.step .reload = some w') : Safe w' := by
  simp only [World.step] at h
  split at h
  · cases h
  · next k queued hqueued =>
      obtain ⟨-, h⟩ := Option.ite_none_right_eq_some.mp h
      obtain rfl := Option.some.inj h
      rw [safe_reloadData]
      intro kind
      exact ((covered_iff k).mp (safe_iff.mp hsafe kind)).1

theorem safe_nextCard {k : Nat} (hsafe : Safe w) (h : w.step (.nextCard k) = some w') :
    Safe w' := by
  obtain rfl := Option.some.inj h
  rw [safe_iff] at hsafe ⊢
  intro kind
  obtain ⟨hbut, hk⟩ := (covered_iff k).mp (hsafe kind)
  refine (covered_update _).mpr ⟨hbut, fun screen hscreen => ?_⟩
  have hwithin := hk screen hscreen
  split
  · next hcards =>
      intro hlife hkind
      obtain rfl : screen.kind = kind := hkind
      have hreported := hwithin hlife rfl
      rw [hcards] at hreported ⊢
      exact Nat.max_le.mpr ⟨hreported, Nat.le_refl _⟩
  · exact hwithin

theorem safe_save {article : Article} {error : Bool} (hsafe : Safe w)
    (h : w.step (.save article error) = some w') : Safe w' := by
  obtain rfl := Option.some.inj h
  cases error with
  | true => exact (safe_congr rfl (fun _ => rfl)).mpr hsafe
  | false =>
      have hsaved : w.Covered .saved w.news.savedNews.length := safe_iff.mp hsafe .saved
      refine Iff.mpr (safe_replaced hsafe (fun _ _ => Iff.rfl)
        (rfl : Kind.array _ .saved = article :: w.news.savedNews) ?_) fun screen hmem => ?_
      · intro other hne
        cases other <;> first | rfl | exact absurd rfl hne
      · apply (hsaved screen hmem).mono
        rw [List.length_cons]
        omega

theorem safe_unsave {uid : Uid} {url : String} {documents : Option (List DocumentId)}
    {swiped : Option Nat} (hsafe : Safe w)
    (h : w.step (.unsave uid url documents swiped) = some w') :
    Safe w' ↔ Fits w (.unsave uid url documents swiped) := by
  cases documents with
  | none =>
      obtain rfl := Option.some.inj h
      exact iff_of_true ((safe_congr rfl (fun _ => rfl)).mpr hsafe) (by simp [Fits])
  | some documents =>
      set w₁ := w.react (unsaveArticle.onDocuments uid url (fun _ => pure ()) (some documents))
        with hw₁
      have hnews : w₁.news = { w.news with
          savedNews := w.news.savedNews.filter fun article => article.url != some url
          savedUrls := w.news.savedUrls.filter fun savedUrl => savedUrl != url } := by
        rw [hw₁, World.react, Callback.exec_apply, unsaveArticle.onDocuments_decomposed]
        rfl
      have hself : Kind.array w₁.news .saved =
          w.news.savedNews.filter fun article => article.url != some url := by
        rw [hnews]
        rfl
      have hother : ∀ other ≠ Kind.saved, other.array w₁.news = other.array w.news := by
        intro other hne
        rw [hnews]
        cases other <;> first | rfl | exact absurd rfl hne
      simp only [Fits, Option.isSome_some, forall_true_left]
      cases swiped with
      | none =>
          obtain rfl := Option.some.inj h
          exact safe_replaced hsafe (fun _ _ => Iff.rfl) hself hother
      | some k =>
          obtain ⟨-, h⟩ := Option.ite_none_right_eq_some.mp h
          obtain rfl := Option.some.inj h
          exact safe_replaced_reloadData hsafe rfl hself hother

theorem array_memoryWarning (kind : Kind) (news : News) (screens : List Screen) :
    kind.array (World.memoryWarning news screens) =
      if ∃ screen ∈ screens, screen.life ≠ .gone ∧ screen.kind = kind then []
      else kind.array news := by
  induction screens generalizing news with
  | nil => simp [World.memoryWarning]
  | cons screen screens ih =>
      have hcons : World.memoryWarning news (screen :: screens) = World.memoryWarning
          (if screen.life = .gone then news else screen.kind.assign [] news) screens := rfl
      rw [hcons, ih]
      by_cases hrest : ∃ other ∈ screens, other.life ≠ .gone ∧ other.kind = kind
      · rw [if_pos hrest, if_pos]
        obtain ⟨other, hmem, hother⟩ := hrest
        exact ⟨other, List.mem_cons_of_mem screen hmem, hother⟩
      · rw [if_neg hrest]
        by_cases hgone : screen.life = .gone
        · rw [if_pos hgone, if_neg]
          rintro ⟨other, hmem, hother⟩
          rcases List.mem_cons.mp hmem with rfl | hmem
          · exact hother.1 hgone
          · exact hrest ⟨other, hmem, hother⟩
        · rw [if_neg hgone]
          by_cases hkind : screen.kind = kind
          · rw [if_pos ⟨screen, List.mem_cons_self, hgone, hkind⟩, hkind, Kind.array_assign_self]
          · rw [Kind.array_assign_ne (Ne.symm hkind), if_neg]
            rintro ⟨other, hmem, hother⟩
            rcases List.mem_cons.mp hmem with rfl | hmem
            · exact hkind hother.2
            · exact hrest ⟨other, hmem, hother⟩

theorem safe_memoryWarning (h : w.step .memoryWarning = some w') :
    Safe w' ↔ ∀ kind, w.Covered kind 0 := by
  obtain rfl := Option.some.inj h
  rw [safe_iff]
  constructor
  · rintro hcovered kind screen hmem hlife rfl
    have hshown : screen.reported ≤
        (screen.kind.array (World.memoryWarning w.news w.screens)).length :=
      hcovered screen.kind screen hmem hlife rfl
    rwa [array_memoryWarning, if_pos ⟨screen, hmem, by rw [hlife]; decide, rfl⟩] at hshown
  · intro hcovered kind screen hmem
    exact (hcovered kind screen hmem).mono (Nat.zero_le _)

theorem within_of_not_attached {screen : Screen} {kind : Kind} {n : Nat}
    (h : screen.life ≠ .attached) : screen.Within kind n :=
  fun hlife => absurd hlife h

theorem safe_leave {k : Nat} (hsafe : Safe w) (h : w.step (.leave k) = some w') : Safe w' := by
  obtain rfl := Option.some.inj h
  rw [safe_iff] at hsafe ⊢
  intro kind
  refine (covered_update _).mpr ⟨((covered_iff k).mp (hsafe kind)).1, fun screen _ => ?_⟩
  apply within_of_not_attached
  change (if screen.life = .attached then Life.left else screen.life) ≠ .attached
  split
  · decide
  · assumption

/-- The `deinit` of a left screen empties the array under every other screen of its kind. -/
theorem safe_teardown {k : Nat} (hsafe : Safe w) (h : w.step (.teardown k) = some w') :
    Safe w' ↔ ∀ screen ∈ w.screens[k]?, w.Covered screen.kind 0 := by
  simp only [World.step] at h
  split at h
  · next screen hscreen =>
      obtain ⟨hleft, h⟩ := Option.ite_none_right_eq_some.mp h
      obtain rfl := Option.some.inj h
      simp only [hscreen, Option.mem_some_iff, forall_eq']
      change _ ↔ w.Covered screen.kind ([] : List Article).length
      refine safe_replaced hsafe (fun kind n => ?_)
        (Kind.array_assign_self [] w.news screen.kind)
        (fun _ hne => Kind.array_assign_ne hne [] w.news)
      refine covered_update_of_within (w := w.assign screen.kind []) fun other hother => ?_
      have heq : w.screens[k]? = some other := hother
      obtain rfl : screen = other := Option.some.inj (hscreen.symm.trans heq)
      have hgone : Life.gone ≠ .attached := by decide
      exact iff_of_true (within_of_not_attached hgone)
        (within_of_not_attached (by rw [hleft]; decide))
  · cases h

/-- A step from safe screens leads to safe ones exactly when it fits. -/
theorem safe_step {e : Event} (hsafe : Safe w) (h : machine.step w e = some w') :
    Safe w' ↔ Fits w e := by
  cases e with
  | enter kind => exact iff_of_true (safe_enter hsafe h) trivial
  | refresh k => exact iff_of_true (safe_refresh hsafe h) trivial
  | complete i data =>
      obtain ⟨⟨fetch, rest⟩, hpick, h⟩ := Option.bind_eq_some_iff.mp h
      simp only [Fits, hpick, Option.mem_some_iff, forall_eq']
      have hsafe' : Safe { w with inFlight := rest } :=
        (safe_congr rfl (fun _ => rfl)).mpr hsafe
      refine (safe_complete hsafe' h).trans ?_
      cases fetch <;> exact Iff.rfl
  | reload => exact iff_of_true (safe_reload hsafe h) trivial
  | nextCard k => exact iff_of_true (safe_nextCard hsafe h) trivial
  | save article error => exact iff_of_true (safe_save hsafe h) trivial
  | unsave uid url documents swiped => exact safe_unsave hsafe h
  | search results =>
      obtain rfl := Option.some.inj h
      have hsame : Safe { w with news := { w.news with searchResults := results } } ↔ Safe w :=
        safe_congr rfl fun kind => by cases kind <;> rfl
      exact iff_of_true (hsame.mpr hsafe) trivial
  | memoryWarning => exact safe_memoryWarning h
  | leave k => exact iff_of_true (safe_leave hsafe h) trivial
  | teardown k => exact safe_teardown hsafe h

end Steps

/-! ## Index safety -/

/-- **Index safety.** In every run of the four kinds of screens, every index that a
view may pass keeps its handler inside its array exactly as long as every step leaves
the arrays as long as the attached views go by. -/
theorem indices_safe {es : List Event} :
    machine.Always Safe {} es ↔ machine.Meets Fits {} es := by
  have hempty : Safe {} := by
    intro screen hmem
    cases hmem
  exact machine.always_iff_meets (I := fun _ => True) (fun _ _ _ => trivial)
    (fun _ hsafe h => safe_step hsafe h) trivial hempty

/-- The first page is shown when the memory warning empties the array under it. -/
def warnedWhileShown : List Event :=
  [.enter .forYou, .complete 0 (some [.titled "a"]), .reload, .memoryWarning]

theorem indices_unsafe : ¬ ∀ es : List Event, machine.Always Safe {} es := by
  intro h
  have hends : (machine.run {} warnedWhileShown).isSome := by decide +kernel
  have hstale : ∀ w ∈ machine.run {} warnedWhileShown,
      w.news.allNews = [] ∧ w.screens = [{ kind := .forYou, reported := 1 }] := by
    decide +kernel
  refine machine.not_always_of_run hends (fun w hw hsafe => ?_) (h warnedWhileShown)
  obtain ⟨hnews, hscreens⟩ := hstale w hw
  -- The shown row is shared: the handler subscripts the empty array.
  have hshare := hsafe { kind := .forYou, reported := 1 } (by rw [hscreens]; decide) rfl
    .share 0 (Or.inl (by decide)) 0 (List.mem_singleton_self 0)
  change 0 < w.news.allNews.length at hshare
  rw [hnews] at hshare
  cases hshare

end NewsFlash.Screens.IndexSafety
