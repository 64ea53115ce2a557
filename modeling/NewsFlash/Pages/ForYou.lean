import NewsFlash.Library.InFlight
import NewsFlash.Library.Machine
import NewsFlash.Models.Networking

/-!
# The pages of the For You screen

`currentPage` moves when a request is issued, `News.shared.allNews` when its
answer arrives. Requests to append a page and requests to replace the list may be
in flight together. The list that the screen is heading for is the one that is
left when all answers arrive in order; a step that does not disturb it is
`Steady`.
-/

namespace NewsFlash.Pages.ForYou

open NewsFlash.Library NewsFlash.Models NewsFlash.Models.Networking

/-! ## The screen -/

/-- A `getAllNews` request; its closure replaces the list or appends to it. -/
structure Pending where
  replaces : Bool
  request : AllNewsRequest
deriving DecidableEq

structure Screen where
  app : App
  currentPage : Nat := 1
  keepLoading : Bool := true
  inFlight : List Pending := []

inductive Action where
  | renderLoadingRow
  | handleRefresh
  | store (key : Key) (value : Option Value)
  | deliver (i : Nat) (ok : Bool)
  | didReceiveMemoryWarning

namespace Screen

def allNews (s : Screen) : List Article := s.app.news.allNews

def withAllNews (s : Screen) (articles : List Article) : Screen :=
  { s with app := { s.app with news := { s.app.news with allNews := articles } } }

section Service

/-! `parses` is `URL(string:)`, and `pages` is what the news service has for some
interests, a language and a page. -/

variable (parses : String → Bool) (pages : List String → String → Nat → List Article)

/-- Ask for `currentPage`; a forced unwrap of a malformed URL ends the process. -/
def getAllNews (replaces : Bool) (s : Screen) : Option Screen :=
  let code : Callback App AllNewsRequest Unit Unit :=
    Networking.getAllNews parses s.currentPage
  match code.exec s.app with
  | (none, _) => none
  | (some (), t) => some { s with
      app := t.store
      inFlight := s.inFlight ++ t.issued.map fun request => ⟨replaces, request⟩ }

def loadNewsForPage (s : Screen) : Option Screen := s.getAllNews parses false

def loadNewsForPage.onNews (s : Screen) : Option (List Article) → Screen
  | some news => { s with keepLoading := true }.withAllNews (s.allNews ++ news)
  | none => { s with keepLoading := false }

def handleRefresh (s : Screen) : Option Screen := { s with currentPage := 1 }.getAllNews parses true

def handleRefresh.onNews (s : Screen) : Option (List Article) → Screen
  | some news => { s with keepLoading := true }.withAllNews news
  | none => { s with keepLoading := false }

/-- The change of an observed key; the other keys are not observed. -/
def observeValue (s : Screen) (key : Key) : Option Screen :=
  if (key = .interests ∨ key = .resultLanguage) ∧
      UserRepository.checkFor .interests s.app.defaults ∧
      UserRepository.checkFor .resultLanguage s.app.defaults then
    s.handleRefresh parses
  else some s

def withStored (s : Screen) (key : Key) (value : Option Value) : Screen :=
  { s with app := { s.app with defaults := match value with
    | some value => UserRepository.store key value s.app.defaults
    | none => UserRepository.removeObject key s.app.defaults } }

def answer (request : AllNewsRequest) : List Article :=
  pages request.interests request.language request.page

def onNews (s : Screen) (pending : Pending) (news : Option (List Article)) : Screen :=
  if pending.replaces then handleRefresh.onNews s news else loadNewsForPage.onNews s news

def act (s : Screen) : Action → Option Screen
  | .renderLoadingRow =>
      if s.keepLoading then { s with currentPage := s.currentPage + 1 }.loadNewsForPage parses
      else none
  | .handleRefresh => s.handleRefresh parses
  | .store key value => (s.withStored key value).observeValue parses key
  | .deliver i ok => (pick s.inFlight i).map fun (pending, rest) =>
      { s with inFlight := rest }.onNews pending
        (if ok then some (answer pages pending.request) else none)
  | .didReceiveMemoryWarning => some (s.withAllNews [])

def viewDidLoad (app : App) : Option Screen := ({ app := app } : Screen).loadNewsForPage parses

end Service

end Screen

def machine (parses : String → Bool) (pages : List String → String → Nat → List Article) :
    Machine Screen Action where
  step := Screen.act parses pages

/-! ## What the list is heading for -/

def settings (app : App) : Option (List String × String) :=
  ((UserRepository.fetch .interests app.defaults).bind Value.asStrings).map fun interests =>
    (interests, (((UserRepository.fetch .resultLanguage app.defaults).bind
      Value.asString).getD ""))

section Settled

variable (pages : List String → String → Nat → List Article)

def edit (pending : Pending) : Edit Article :=
  if pending.replaces then .replace (Screen.answer pages pending.request)
  else .append (Screen.answer pages pending.request)

/-- The list once all answers have arrived in order. -/
def Screen.settled (s : Screen) : List Article :=
  settle s.allNews (s.inFlight.map (edit pages))

/-- The list is the first `m` pages for the stored settings, and the loading row
would ask for the next one. -/
def Screen.Paged (s : Screen) : Prop :=
  ∃ interests language, settings s.app = some (interests, language) ∧
    ∃ m, s.allNews = firstPages (pages interests language) m ∧ s.currentPage + 1 = m + 1

/-- The step does not disturb the list that the screen is heading for: an answer
fits it, or its failure takes nothing from it; a memory warning takes nothing that
an answer in flight will not bring back; a change of the stored settings leaves
them complete, or leaves those of the requests as they are. -/
def Steady (s : Screen) : Action → Prop
  | .deliver i true => ∀ picked ∈ pick s.inFlight i,
      settle ((edit pages picked.1).apply s.allNews) (picked.2.map (edit pages)) = s.settled pages
  | .deliver i false => ∀ picked ∈ pick s.inFlight i,
      settle s.allNews (picked.2.map (edit pages)) = s.settled pages
  | .didReceiveMemoryWarning => settle [] (s.inFlight.map (edit pages)) = s.settled pages
  | .store key value =>
      let app := (s.withStored key value).app
      settings app = settings s.app ∨
        (settings app).isSome ∧ UserRepository.checkFor .resultLanguage app.defaults
  | .renderLoadingRow | .handleRefresh => True

instance (s : Screen) : (a : Action) → Decidable (Steady pages s a)
  | .deliver _ true | .deliver _ false => inferInstanceAs (Decidable (∀ _ ∈ _, _))
  | .didReceiveMemoryWarning => inferInstanceAs (Decidable (_ = _))
  | .store _ _ => inferInstanceAs (Decidable (_ ∨ _ ∧ _))
  | .renderLoadingRow | .handleRefresh => inferInstanceAs (Decidable True)

end Settled

/-! ## Steady steps -/

section Steps

variable {parses : String → Bool} {pages : List String → String → Nat → List Article}
  {s s' : Screen}

theorem getAllNews_eq {replaces : Bool} {interests : List String} {language : String}
    (hsettings : settings s.app = some (interests, language))
    (h : s.getAllNews parses replaces = some s') :
    s' = { s with inFlight := s.inFlight ++
      [⟨replaces, ⟨interests, language, s.currentPage⟩⟩] } := by
  unfold settings at hsettings
  obtain ⟨stored, hstored, heq⟩ := Option.map_eq_some_iff.mp hsettings
  obtain ⟨rfl, rfl⟩ := Prod.mk.inj heq
  have hinterests : storedInterests s.app = some stored := hstored
  unfold Screen.getAllNews at h
  simp only [Callback.exec_apply, getAllNews_apply, hinterests] at h
  cases hparses : parses (AllNewsRequest.url ⟨stored, preferredLanguage s.app, s.currentPage⟩) with
  | false =>
      rw [hparses] at h
      cases h
  | true =>
      rw [hparses] at h
      exact (Option.some.inj h).symm

theorem act_deliver_ok {i : Nat} (h : s.act parses pages (.deliver i true) = some s') :
    ∃ pending rest, pick s.inFlight i = some (pending, rest) ∧
      s' = { s with keepLoading := true, inFlight := rest }.withAllNews
        ((edit pages pending).apply s.allNews) := by
  obtain ⟨⟨pending, rest⟩, hpick, rfl⟩ := Option.map_eq_some_iff.mp h
  refine ⟨pending, rest, hpick, ?_⟩
  obtain ⟨_ | _, request⟩ := pending <;> rfl

theorem act_deliver_failed {i : Nat} (h : s.act parses pages (.deliver i false) = some s') :
    ∃ pending rest, pick s.inFlight i = some (pending, rest) ∧
      s' = { s with keepLoading := false, inFlight := rest } := by
  obtain ⟨⟨pending, rest⟩, hpick, rfl⟩ := Option.map_eq_some_iff.mp h
  refine ⟨pending, rest, hpick, ?_⟩
  obtain ⟨_ | _, request⟩ := pending <;> rfl

theorem steady_in_turn : Steady pages s (.deliver 0 true) := by
  rintro ⟨pending, rest⟩ hpick
  have hedits : pick (s.inFlight.map (edit pages)) 0 =
      some (edit pages pending, rest.map (edit pages)) := by
    rw [pick_map, hpick]
    rfl
  exact settle_pick_zero hedits s.allNews

/-- Whatever happens to a request is steady while a later refresh is in flight. -/
theorem steady_overtaken {i : Nat} (ok : Bool)
    (hrefresh : ∃ pending ∈ s.inFlight.drop (i + 1), pending.replaces = true) :
    Steady pages s (.deliver i ok) := by
  have hreplace : ∃ r ∈ (s.inFlight.map (edit pages)).drop (i + 1), r.IsReplace := by
    obtain ⟨pending, hmem, hreplaces⟩ := hrefresh
    refine ⟨edit pages pending, ?_, ?_⟩
    · rw [← List.map_drop]
      exact List.mem_map_of_mem hmem
    · simp [edit, hreplaces, Edit.IsReplace]
  have hedits : ∀ picked ∈ pick s.inFlight i, pick (s.inFlight.map (edit pages)) i =
      some (edit pages picked.1, picked.2.map (edit pages)) := by
    intro picked hpick
    rw [pick_map, hpick]
    rfl
  cases ok with
  | true =>
      intro picked hpick
      exact settle_pick_overtaken (hedits picked hpick) hreplace _ _
  | false =>
      intro picked hpick
      exact settle_pick_overtaken (hedits picked hpick) hreplace _ _

/-- The screen is heading for the first pages, up to the current one, for the
stored settings. -/
def Heading (pages : List String → String → Nat → List Article) (s : Screen) : Prop :=
  ∃ interests language, settings s.app = some (interests, language) ∧
    s.settled pages = firstPages (pages interests language) s.currentPage

/-- A refresh heads for the first page, whatever was in flight before. -/
theorem heading_refresh (hsettings : (settings s.app).isSome)
    (h : s.handleRefresh parses = some s') : Heading pages s' := by
  obtain ⟨⟨interests, language⟩, hsettings⟩ := Option.isSome_iff_exists.mp hsettings
  obtain rfl := getAllNews_eq (s := { s with currentPage := 1 }) hsettings h
  refine ⟨interests, language, hsettings, ?_⟩
  simp only [Screen.settled, List.map_append, List.map_singleton]
  exact settle_concat_replace _ _ _

theorem heading_store {key : Key} {value : Option Value} (hheading : Heading pages s)
    (hsteady : Steady pages s (.store key value))
    (h : (s.withStored key value).observeValue parses key = some s') : Heading pages s' := by
  unfold Screen.observeValue at h
  split at h
  · next hrefresh =>
      obtain ⟨interests, language, hsettings, -⟩ := hheading
      refine heading_refresh ?_ h
      rcases hsteady with hsame | ⟨hsome, -⟩
      · rw [hsame, hsettings]
        rfl
      · exact hsome
  · next hquiet =>
      obtain rfl := Option.some.inj h
      have hsame : settings (s.withStored key value).app = settings s.app := by
        rcases hsteady with hsame | ⟨hsome, hlanguage⟩
        · exact hsame
        · -- both settings are stored, so the key was not an observed one
          have hinterests : UserRepository.checkFor .interests
              (s.withStored key value).app.defaults := by
            unfold settings at hsome
            rw [Option.isSome_map] at hsome
            exact Option.isSome_of_isSome_bind hsome
          have hkey : ¬(key = .interests ∨ key = .resultLanguage) := fun hkey =>
            hquiet ⟨hkey, hinterests, hlanguage⟩
          obtain ⟨hkey, hkey'⟩ := not_or.mp hkey
          unfold settings UserRepository.fetch Screen.withStored
          cases value <;>
            simp [UserRepository.store, UserRepository.removeObject, Ne.symm hkey, Ne.symm hkey']
      obtain ⟨interests, language, hsettings, hsettled⟩ := hheading
      exact ⟨interests, language, hsame.trans hsettings, hsettled⟩

theorem heading_step {a : Action} (hheading : Heading pages s) (hsteady : Steady pages s a)
    (h : (machine parses pages).step s a = some s') : Heading pages s' := by
  change s.act parses pages a = some s' at h
  cases a with
  | renderLoadingRow =>
      simp only [Screen.act] at h
      split at h
      · obtain ⟨interests, language, hsettings, hsettled⟩ := hheading
        obtain rfl := getAllNews_eq (s := { s with currentPage := s.currentPage + 1 }) hsettings h
        refine ⟨interests, language, hsettings, ?_⟩
        simp only [Screen.settled, List.map_append, List.map_singleton]
        rw [firstPages_succ, ← hsettled]
        exact settle_concat_append _ _ _
      · cases h
  | handleRefresh =>
      obtain ⟨interests, language, hsettings, -⟩ := hheading
      exact heading_refresh (by rw [hsettings]; rfl) h
  | store key value => exact heading_store hheading hsteady h
  | deliver i ok =>
      obtain ⟨interests, language, hsettings, hsettled⟩ := hheading
      cases ok with
      | true =>
          obtain ⟨pending, rest, hpick, rfl⟩ := act_deliver_ok h
          exact ⟨interests, language, hsettings, (hsteady (pending, rest) hpick).trans hsettled⟩
      | false =>
          obtain ⟨pending, rest, hpick, rfl⟩ := act_deliver_failed h
          exact ⟨interests, language, hsettings, (hsteady (pending, rest) hpick).trans hsettled⟩
  | didReceiveMemoryWarning =>
      obtain ⟨interests, language, hsettings, hsettled⟩ := hheading
      obtain rfl := Option.some.inj h
      exact ⟨interests, language, hsettings, hsteady.trans hsettled⟩

end Steps

/-! ## The list is made of the first pages -/

section Runs

variable {parses : String → Bool} {pages : List String → String → Nat → List Article}
  {app : App} {s₀ s : Screen} {as : List Action}

theorem heading_viewDidLoad (hempty : app.news.allNews = []) (hsettings : (settings app).isSome)
    (hload : Screen.viewDidLoad parses app = some s₀) : Heading pages s₀ := by
  obtain ⟨⟨interests, language⟩, hsettings⟩ := Option.isSome_iff_exists.mp hsettings
  obtain rfl := getAllNews_eq (s := { app := app }) hsettings hload
  refine ⟨interests, language, hsettings, ?_⟩
  simp [Screen.settled, Screen.allNews, hempty, edit, Screen.answer, Edit.apply]

/-- **Pagination.** After an initial load with stored interests, in every run of
steady steps and in every state with no request in flight, the list is made of the
first pages for the stored settings, each once and in order, and the loading row
would ask for the next one. -/
theorem paged_of_steady (hempty : app.news.allNews = []) (hsettings : (settings app).isSome)
    (hload : Screen.viewDidLoad parses app = some s₀)
    (hsteady : (machine parses pages).Meets (Steady pages) s₀ as)
    (hrun : (machine parses pages).run s₀ as = some s) (hidle : s.inFlight = []) :
    s.Paged pages := by
  have hheading₀ : Heading pages s₀ := heading_viewDidLoad hempty hsettings hload
  obtain ⟨interests, language, hstored, hsettled⟩ :=
    (machine parses pages).run_invariant heading_step hheading₀ hsteady hrun
  refine ⟨interests, language, hstored, s.currentPage, ?_, rfl⟩
  rw [← hsettled, Screen.settled, hidle]
  rfl

def inOrder (s : Screen) : List Action := List.replicate s.inFlight.length (.deliver 0 true)

theorem run_inOrder (s : Screen) :
    ∃ t, (machine parses pages).run s (inOrder s) = some t ∧ t.inFlight = [] ∧
      t.allNews = s.settled pages ∧ t.currentPage = s.currentPage ∧
      settings t.app = settings s.app := by
  obtain ⟨app, currentPage, keepLoading, inFlight⟩ := s
  induction inFlight generalizing app keepLoading with
  | nil => exact ⟨_, rfl, rfl, rfl, rfl, rfl⟩
  | cons pending rest ih =>
      let next : Screen := { app, currentPage, keepLoading := true, inFlight := rest }
      let news := (edit pages pending).apply app.news.allNews
      have hstep : (machine parses pages).step ⟨app, currentPage, keepLoading, pending :: rest⟩
          (.deliver 0 true) = some (next.withAllNews news) := by
        obtain ⟨_ | _, request⟩ := pending <;> rfl
      obtain ⟨t, hrun, hidle, hnews, hpage, hsettings⟩ := ih (next.withAllNews news).app true
      exact ⟨t, ((machine parses pages).run_cons_eq_some).mpr ⟨_, hstep, hrun⟩, hidle, hnews,
        hpage, hsettings⟩

/-- An answer or a memory warning that is not steady spoils the list: once the
other answers have arrived in order, it is not made of the first pages. -/
theorem not_paged_of_unsteady {s' : Screen} {a : Action} (hheading : Heading pages s)
    (ha : ∀ key value, a ≠ .store key value) (hunsteady : ¬ Steady pages s a)
    (h : (machine parses pages).step s a = some s') :
    ∃ t, (machine parses pages).run s' (inOrder s') = some t ∧ t.inFlight = [] ∧
      ¬ t.Paged pages := by
  obtain ⟨interests, language, hsettings, hsettled⟩ := hheading
  have hspoiled : s'.settled pages ≠ s.settled pages ∧ s'.currentPage = s.currentPage ∧
      settings s'.app = settings s.app := by
    change s.act parses pages a = some s' at h
    cases a with
    | renderLoadingRow => exact absurd trivial hunsteady
    | handleRefresh => exact absurd trivial hunsteady
    | store key value => exact absurd rfl (ha key value)
    | deliver i ok =>
        cases ok with
        | true =>
            obtain ⟨pending, rest, hpick, rfl⟩ := act_deliver_ok h
            simp only [Steady, hpick, Option.mem_some_iff, forall_eq'] at hunsteady
            exact ⟨hunsteady, rfl, rfl⟩
        | false =>
            obtain ⟨pending, rest, hpick, rfl⟩ := act_deliver_failed h
            simp only [Steady, hpick, Option.mem_some_iff, forall_eq'] at hunsteady
            exact ⟨hunsteady, rfl, rfl⟩
    | didReceiveMemoryWarning =>
        obtain rfl := Option.some.inj h
        exact ⟨hunsteady, rfl, rfl⟩
  obtain ⟨hne, hpage, hsame⟩ := hspoiled
  obtain ⟨t, hrun, hidle, hnews, hpage', hsame'⟩ := @run_inOrder parses pages s'
  refine ⟨t, hrun, hidle, ?_⟩
  rintro ⟨interests', language', hstored, m, hpages, hm⟩
  rw [hsame', hsame, hsettings] at hstored
  obtain ⟨rfl, rfl⟩ := Prod.mk.inj (Option.some.inj hstored)
  have hm' : m = s.currentPage := by omega
  rw [hnews, hm', ← hsettled] at hpages
  exact hne hpages

end Runs

def scienceReader : App where
  defaults := UserRepository.store .interests (.strings ["science"])
    (UserRepository.store .resultLanguage (.string "en") fun _ => none)

def onePerPage (interests : List String) (language : String) (page : Nat) : List Article :=
  [.titled (interests.headD language ++ toString page)]

/-- A page is requested and fails after a refresh; then the interests change, and
a memory warning comes before the answer. -/
def refreshedInTime : List Action :=
  [.deliver 0 true, .renderLoadingRow, .handleRefresh, .deliver 0 false, .deliver 0 true,
    .store .interests (some (.strings ["sports"])), .didReceiveMemoryWarning, .deliver 0 true]

theorem paged_of_steady_refreshedInTime :
    ∃ s₀ s, Screen.viewDidLoad (fun _ => true) scienceReader = some s₀ ∧
      (machine (fun _ => true) onePerPage).run s₀ refreshedInTime = some s ∧
      s.Paged onePerPage := by
  obtain ⟨s₀, hload⟩ : ∃ s₀, Screen.viewDidLoad (fun _ => true) scienceReader = some s₀ :=
    ⟨_, rfl⟩
  have hsteady : ∀ s₀ ∈ Screen.viewDidLoad (fun _ => true) scienceReader,
      (machine (fun _ => true) onePerPage).Meets (Steady onePerPage) s₀ refreshedInTime ∧
        ((machine (fun _ => true) onePerPage).run s₀ refreshedInTime).isSome ∧
        ∀ s ∈ (machine (fun _ => true) onePerPage).run s₀ refreshedInTime, s.inFlight = [] := by
    decide +kernel
  obtain ⟨hmeets, hends, hidle⟩ := hsteady s₀ hload
  obtain ⟨s, hs⟩ := Option.isSome_iff_exists.mp hends
  exact ⟨s₀, s, hload, hs, paged_of_steady rfl (by decide) hload hmeets hs (hidle s hs)⟩

/-- When the initial load fails, the list is empty and the loading row would ask
for the second page. -/
theorem not_paged_initial_failure :
    ¬ ∀ (parses : String → Bool) (pages : List String → String → Nat → List Article) (app : App)
      (s₀ s : Screen) (as : List Action), app.news.allNews = [] → (settings app).isSome →
      Screen.viewDidLoad parses app = some s₀ → (machine parses pages).run s₀ as = some s →
      s.inFlight = [] → s.Paged pages := by
  intro h
  obtain ⟨s₀, hload⟩ : ∃ s₀, Screen.viewDidLoad (fun _ => true) scienceReader = some s₀ :=
    ⟨_, rfl⟩
  have hfailed : ∀ s₀ ∈ Screen.viewDidLoad (fun _ => true) scienceReader,
      ((machine (fun _ => true) onePerPage).run s₀ [.deliver 0 false]).isSome ∧
        ∀ s ∈ (machine (fun _ => true) onePerPage).run s₀ [.deliver 0 false],
          s.inFlight = [] ∧ s.allNews = [] ∧ s.currentPage = 1 := by
    decide +kernel
  obtain ⟨hends, hfailed⟩ := hfailed s₀ hload
  obtain ⟨s, hs⟩ := Option.isSome_iff_exists.mp hends
  obtain ⟨hidle, hnews, hpage⟩ := hfailed s hs
  obtain ⟨interests, language, -, m, hpages, hm⟩ :=
    h _ onePerPage _ s₀ s _ rfl (by decide) hload hs hidle
  rw [hpage] at hm
  obtain rfl : m = 1 := by omega
  rw [hnews] at hpages
  cases hpages

end NewsFlash.Pages.ForYou
