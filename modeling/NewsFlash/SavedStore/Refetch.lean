import NewsFlash.Library.Sorting
import NewsFlash.SavedStore.Coherence
import NewsFlash.SavedStore.OneCall

/-!
# The saved articles and a fresh fetch

Calls that run one at a time edit the saved articles in step with the server: a save
puts its article at the front, where the newest document comes first, and an unsave
filters by the url that its query matches. What is kept is then what a fetch would
bring, but for the fields that the server does not keep.
-/

namespace NewsFlash.SavedStore

open NewsFlash.Library NewsFlash.Models NewsFlash.Models.Networking

/-! ## What the server keeps of an article -/

/-- The article as the server gives it back: missing fields are empty strings, and the
source has no identifier. -/
def normalized (article : Article) : Article where
  source := some ⟨none, some ((article.source.bind Source.name).getD "")⟩
  title := some (article.title.getD "")
  description := some (article.description.getD "")
  url := article.url
  urlToImage := some (article.urlToImage.getD "")

theorem article_data_fields {article : Article} (hurl : article.url.isSome) :
    (saveArticle.data article).fields.article = normalized article := by
  obtain ⟨url, hurl⟩ := Option.isSome_iff_exists.mp hurl
  simp [saveArticle.data, SavedData.fields, SavedFields.article, normalized, hurl]

def fetched (documents : List SavedDocument) : List Article :=
  (orderedBySavedAt documents).map fun document => document.data.fields.article

theorem normalized_fetched (documents : List SavedDocument) :
    (fetched documents).map normalized = fetched documents := by
  rw [fetched, List.map_map]
  rfl

theorem fetched_concat {documents : List SavedDocument} {document : SavedDocument}
    (hnewest : ∀ d ∈ documents, d.savedAt < document.savedAt) :
    fetched (documents ++ [document]) = document.data.fields.article :: fetched documents := by
  have hlast : ∀ d ∈ documents, ¬ document.savedAt ≤ d.savedAt := fun d hd =>
    Nat.not_le.mpr (hnewest d hd)
  rw [fetched, orderedBySavedAt, insertionSort_concat hlast]
  rfl

theorem fetched_filter (documents : List SavedDocument) (url : String) :
    fetched (documents.filter fun document => document.data.url != url) =
      (fetched documents).filter fun article => article.url != some url := by
  have htotal : Std.Total fun d d' : SavedDocument => d'.savedAt ≤ d.savedAt :=
    ⟨fun d d' => Nat.le_total d'.savedAt d.savedAt⟩
  have htrans : IsTrans SavedDocument fun d d' => d'.savedAt ≤ d.savedAt :=
    ⟨fun _ _ _ h h' => Nat.le_trans h' h⟩
  rw [fetched, orderedBySavedAt, insertionSort_filter, fetched, List.filter_map]
  rfl

/-! ## Calls in turn -/

/-- A call that finishes before the next one begins, or a delete that the server
executes at some moment. -/
inductive Turn where
  | change (change : Change) (ok : Bool)
  | delete (uid : Uid) (document : DocumentId)

def sequential : Machine (State Unit) Turn where
  step s turn := match turn with
    | .change change ok => (s.complete change.operation ok).map Prod.fst
    | .delete uid id => (s.act (.delete uid id)).map Prod.fst

def Turn.HasUrl : Turn → Prop
  | .change (.save article) _ => article.url.isSome
  | _ => True

instance : (turn : Turn) → Decidable turn.HasUrl
  | .change (.save article) _ => inferInstanceAs (Decidable (article.url.isSome = true))
  | .change (.unsave _) _ | .delete _ _ => inferInstanceAs (Decidable True)

/-- The local lists are what a fetch would bring once the outstanding deletes are
executed. -/
structure Mirrors (user : User) (s : State Unit) : Prop where
  signedIn : s.app.currentUser = some user
  stamped : ∀ document ∈ s.server.saved user.uid, document.savedAt < s.server.nextId
  issued : ∀ delete ∈ s.deletes, delete.2 < s.server.nextId
  news : s.app.news.savedNews.map normalized = fetched (s.standing user.uid)
  urls : s.app.news.savedUrls.Perm (s.standingUrls user.uid)

section Steps

variable {user : User} {s s' : State Unit}

theorem standing_save (hissued : ∀ delete ∈ s.deletes, delete.2 < s.server.nextId)
    (data : SavedData) (app : App) :
    State.standing { s with server := s.server.add user.uid data, app := app } user.uid =
      s.standing user.uid ++ [s.server.newDocument data] := by
  have hnew : (user.uid, s.server.nextId) ∉ s.deletes := fun hmem =>
    Nat.lt_irrefl _ (hissued _ hmem)
  rw [State.standing, Server.saved_add, List.filter_append, List.filter_cons_of_pos]
  · rfl
  · simpa [Server.newDocument] using hnew

theorem standing_unsave (url : String) (app : App) :
    State.standing { s with
      app := app
      deletes := s.deletes ++
        ((s.server.saved user.uid).filter fun document => document.data.url == url).map
          fun document => (user.uid, document.id) } user.uid =
      (s.standing user.uid).filter fun document => document.data.url != url := by
  rw [State.standing, State.standing, List.filter_filter]
  refine List.filter_congr fun document hmem => ?_
  -- identifiers are unique, so a document is matched exactly if its url is
  have hmatched : (user.uid, document.id) ∈
      ((s.server.saved user.uid).filter fun document => document.data.url == url).map
        (fun document => (user.uid, document.id)) ↔ document.data.url = url := by
    constructor
    · intro hid
      obtain ⟨d, hd, heq⟩ := List.mem_map.mp hid
      obtain ⟨hd, hurl⟩ := List.mem_filter.mp hd
      obtain rfl := Server.eq_of_id_eq hd hmem (Prod.mk.inj heq).2
      simpa using hurl
    · intro hurl
      exact List.mem_map.mpr ⟨document, by simp [hmem, hurl], rfl⟩
  have hiff : (user.uid, document.id) ∈ s.deletes ++
      ((s.server.saved user.uid).filter fun document => document.data.url == url).map
        (fun document => (user.uid, document.id)) ↔
      (user.uid, document.id) ∈ s.deletes ∨ document.data.url = url := by
    rw [List.mem_append, hmatched]
  rw [Bool.eq_iff_iff]
  simp only [Bool.not_eq_true', List.contains_eq_mem, decide_eq_false_iff_not, hiff, not_or,
    Bool.and_eq_true, bne_iff_ne, ne_eq]
  exact and_comm

theorem mirrors_change {change : Change} {ok : Bool} {answers : List (Unit × Bool)}
    (hinv : Mirrors user s) (hurl : Turn.HasUrl (.change change ok))
    (h : s.complete change.operation ok = some (s', answers)) : Mirrors user s' := by
  obtain ⟨huser, hstamped, hissued, hnews, hurls⟩ := hinv
  cases change with
  | save article =>
      cases ok with
      | false =>
          rw [Change.operation, complete_save_failed huser] at h
          obtain ⟨rfl, -⟩ := Prod.mk.inj (Option.some.inj h)
          exact ⟨huser, hstamped, hissued, hnews, hurls⟩
      | true =>
          rw [Change.operation, complete_save huser] at h
          obtain ⟨rfl, -⟩ := Prod.mk.inj (Option.some.inj h)
          have hnewest : ∀ d ∈ s.standing user.uid,
              d.savedAt < (s.server.newDocument (saveArticle.data article)).savedAt :=
            fun d hd => hstamped d (State.mem_standing.mp hd).1
          refine ⟨huser, ?_, fun delete hd => Nat.lt_succ_of_lt (hissued delete hd), ?_, ?_⟩
          · intro document hmem
            rw [Server.saved_add, List.mem_append, List.mem_singleton] at hmem
            rcases hmem with hmem | rfl
            · exact Nat.lt_succ_of_lt (hstamped document hmem)
            · exact Nat.lt_succ_self _
          · rw [standing_save hissued, fetched_concat hnewest, ← hnews]
            exact congrArg (· :: _) (article_data_fields hurl).symm
          · rw [State.standingUrls, standing_save hissued, List.map_append]
            exact hurls.append_right _
  | unsave url =>
      cases ok with
      | false =>
          rw [Change.operation, complete_unsave_failed huser] at h
          obtain ⟨rfl, -⟩ := Prod.mk.inj (Option.some.inj h)
          exact ⟨huser, hstamped, hissued, hnews, hurls⟩
      | true =>
          rw [Change.operation, complete_unsave huser] at h
          obtain ⟨rfl, -⟩ := Prod.mk.inj (Option.some.inj h)
          refine ⟨huser, hstamped, ?_, ?_, ?_⟩
          · intro delete hd
            rcases List.mem_append.mp hd with hd | hd
            · exact hissued delete hd
            · obtain ⟨document, hmem, rfl⟩ := List.mem_map.mp hd
              exact s.server.fresh user.uid document (List.mem_of_mem_filter hmem)
          · rw [standing_unsave, fetched_filter, ← hnews, List.filter_map]
            refine congrArg _ (List.filter_congr fun article _ => ?_)
            exact all_not_beq article.url url
          · rw [State.standingUrls, standing_unsave]
            have hfilter := hurls.filter fun savedUrl => savedUrl != url
            rwa [State.standingUrls, List.filter_map] at hfilter

theorem mirrors_step {turn : Turn} (hinv : Mirrors user s) (hurl : turn.HasUrl)
    (h : sequential.step s turn = some s') : Mirrors user s' := by
  cases turn with
  | change change ok =>
      obtain ⟨⟨s', answers⟩, hcomplete, rfl⟩ := Option.map_eq_some_iff.mp h
      exact mirrors_change hinv hurl hcomplete
  | delete uid id =>
      obtain ⟨⟨s', answers⟩, hact, rfl⟩ := Option.map_eq_some_iff.mp h
      obtain ⟨hmem, -, rfl⟩ := act_delete hact
      obtain ⟨huser, hstamped, hissued, hnews, hurls⟩ := hinv
      refine ⟨huser, ?_, fun delete hd => hissued delete (List.mem_of_mem_erase hd), ?_, ?_⟩
      · exact fun document hd => hstamped document (Server.mem_saved_delete hd)
      · rw [standing_delete hmem, hnews]
      · rw [State.standingUrls, standing_delete hmem]
        exact hurls

end Steps

/-! ## The local lists refine a fetch -/

section Runs

variable {app : App} {server : Server} {user : User} {s₀ s : State Unit} {turns : List Turn}

theorem mirrors_fetched (huser : app.currentUser = some user)
    (hstamped : ∀ document ∈ server.saved user.uid, document.savedAt < server.nextId)
    (hfetch : ({ app, server } : State Unit).complete .getSavedNews true = some (s₀, [])) :
    Mirrors user s₀ := by
  rw [complete_getSavedNews huser] at hfetch
  obtain ⟨rfl, -⟩ := Prod.mk.inj (Option.some.inj hfetch)
  have hall : ∀ app, State.standing ({ app, server } : State Unit) user.uid =
      server.saved user.uid := fun app => by simp [State.standing]
  refine ⟨huser, hstamped, fun delete hd => (by cases hd), ?_, ?_⟩
  · rw [hall]
    exact normalized_fetched _
  · rw [State.standingUrls, hall]
    exact (List.perm_insertionSort _ _).map _

theorem saved_answerDeletes (s : State Unit) (uid : Uid) :
    (s.answerDeletes fun _ => true).server.saved uid = s.standing uid := by
  rw [State.answerDeletes, foldl_delete_saved, List.filter_true]
  rfl

/-- **Refetch.** From a fetch on, after any calls that finish one before the next begins,
whatever their outcomes and whenever their deletes are executed, the saved articles are in
content and order what a fetch brings once the deletes are through, but for the fields
that the server does not keep, and the saved urls are the fetched ones. -/
theorem savedNews_refetched (huser : app.currentUser = some user)
    (hstamped : ∀ document ∈ server.saved user.uid, document.savedAt < server.nextId)
    (hfetch : ({ app, server } : State Unit).complete .getSavedNews true = some (s₀, []))
    (hurls : ∀ turn ∈ turns, turn.HasUrl) (hrun : sequential.run s₀ turns = some s) :
    ∃ t, (s.answerDeletes fun _ => true).complete .getSavedNews true = some (t, []) ∧
      s.app.news.savedNews.map normalized = t.app.news.savedNews ∧
      s.app.news.savedUrls.Perm t.app.news.savedUrls := by
  have hinv : Mirrors user s :=
    sequential.run_invariant (G := fun _ turn => turn.HasUrl) mirrors_step
      (mirrors_fetched huser hstamped hfetch) (sequential.meets_of_forall hurls s₀) hrun
  have huser' : (s.answerDeletes fun _ => true).app.currentUser = some user := hinv.signedIn
  refine ⟨_, complete_getSavedNews huser', ?_, ?_⟩
  · rw [saved_answerDeletes]
    exact hinv.news
  · rw [saved_answerDeletes]
    exact hinv.urls.trans ((List.perm_insertionSort _ _).map _).symm

end Runs

/-- The reader saves the report, saves the story twice, fails to save it again and unsaves it;
one of the story's two documents goes at once. -/
def savedTwiceAndUnsaved : List Turn :=
  [.change (.save report) true, .change (.save story) true, .change (.save story) true,
    .change (.save story) false, .change (.unsave story.key) true, .delete reader.uid 1]

theorem savedNews_refetched_savedTwiceAndUnsaved :
    ∃ s₀ s t : State Unit, (emptyStart : State Unit).complete .getSavedNews true = some (s₀, []) ∧
      sequential.run s₀ savedTwiceAndUnsaved = some s ∧ s.app.news.savedNews = [report] ∧
      (s.answerDeletes fun _ => true).complete .getSavedNews true = some (t, []) ∧
      s.app.news.savedNews.map normalized = t.app.news.savedNews ∧
      s.app.news.savedUrls.Perm t.app.news.savedUrls := by
  obtain ⟨s₀, hfetch⟩ : ∃ s₀, (emptyStart : State Unit).complete .getSavedNews true =
      some (s₀, []) := ⟨_, rfl⟩
  have hends : ∀ fetch ∈ (emptyStart : State Unit).complete .getSavedNews true,
      (sequential.run fetch.1 savedTwiceAndUnsaved).isSome := by decide +kernel
  have hleft : ∀ fetch ∈ (emptyStart : State Unit).complete .getSavedNews true,
      ∀ s ∈ sequential.run fetch.1 savedTwiceAndUnsaved, s.app.news.savedNews = [report] := by
    decide +kernel
  obtain ⟨s, hs⟩ := Option.isSome_iff_exists.mp (hends _ hfetch)
  have huser : (emptyStart : State Unit).app.currentUser = some reader := rfl
  obtain ⟨t, ht⟩ := savedNews_refetched huser (fun document hmem => by cases hmem) hfetch
    (by decide) hs
  exact ⟨s₀, s, t, hfetch, hs, hleft _ hfetch s hs, ht⟩

end NewsFlash.SavedStore
