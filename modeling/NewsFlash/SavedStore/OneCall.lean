import NewsFlash.SavedStore.Machine

/-!
# One call at a time

A call that is alone at work: it is issued, the server executes it and its closure
runs before anything else happens. What a save and an unsave then report is compared
with what they did, and an unsave with the save it is to undo. The deletes of an
unsave are answered after its completion was called, and nobody looks at the answers.
-/

namespace NewsFlash.SavedStore

open NewsFlash.Library NewsFlash.Models NewsFlash.Models.Networking

variable {κ : Type}

/-! ## A call from its request to its completion -/

namespace State

/-- The call, its execution by the server, which succeeds or fails, and its closure. -/
def complete [Canonical] (s : State κ) (operation : Operation κ) (ok : Bool) :
    Option (State κ × List (κ × Bool)) :=
  (s.act (.call operation)).bind fun (asked, _) =>
    (asked.act (.execute s.waiting.length ok)).bind fun (executed, _) =>
      executed.act (.deliver s.ready.length)

/-- The outstanding deletes are answered: those of the accepted documents succeed. -/
def answerDeletes (s : State κ) (accepted : DocumentId → Bool) : State κ :=
  { s with
    server := (s.deletes.filter fun delete => accepted delete.2).foldl
      (fun server delete => server.delete delete.1 delete.2) s.server
    deletes := [] }

end State

/-! ## What a call does -/

section Complete

variable [Canonical] {s t : State κ} {user : User} {answers : List (κ × Bool)}

theorem complete_eq (huser : s.app.currentUser = some user) (operation : Operation κ) (ok : Bool)
    {server : Server} {reply : Reply κ} {request : SavedRequest κ}
    (hasked : operation.asks (some user) = some [request])
    (hexecuted : s.executed request ok = { s with server, ready := s.ready ++ [reply] })
    (hframe : ∀ waiting, { s with waiting := waiting }.executed request ok =
      { s.executed request ok with waiting := waiting }) :
    s.complete operation ok = { s with server := server }.react reply.closure := by
  rw [State.complete, act_call_asks, huser, hasked, Option.map_some, Option.bind_some]
  simp only [State.act, pick_concat, Option.map_some, Option.bind_some]
  rw [hframe, hframe, hexecuted]
  simp only [pick_concat, Option.bind_some]

theorem complete_save (huser : s.app.currentUser = some user) (article : Article)
    (completion : κ) :
    s.complete (.saveArticle article completion) true = some ({ s with
      server := s.server.add user.uid (saveArticle.data article)
      app := { s.app with news := { s.app.news with
        savedNews := article :: s.app.news.savedNews
        savedUrls := s.app.news.savedUrls ++ [article.key] } } }, [(completion, true)]) := by
  rw [complete_eq huser _ true rfl rfl fun _ => rfl, react_added]

theorem complete_save_failed (huser : s.app.currentUser = some user) (article : Article)
    (completion : κ) :
    s.complete (.saveArticle article completion) false = some (s, [(completion, false)]) := by
  rw [complete_eq huser _ false rfl rfl fun _ => rfl, react_added_failed]

theorem complete_unsave (huser : s.app.currentUser = some user) (url : String) (completion : κ) :
    s.complete (.unsaveArticle url completion) true = some ({ s with
      app := { s.app with news := { s.app.news with
        savedNews := s.app.news.savedNews.filter fun article =>
          article.url.all fun articleUrl => !equal articleUrl url
        savedUrls := s.app.news.savedUrls.filter fun savedUrl => !equal savedUrl url } }
      deletes := s.deletes ++
        ((s.server.saved user.uid).filter fun document => document.data.url == url).map
          fun document => (user.uid, document.id) }, [(completion, true)]) := by
  rw [complete_eq huser _ true rfl rfl fun _ => rfl, if_pos rfl, react_matched]

theorem complete_unsave_failed (huser : s.app.currentUser = some user) (url : String)
    (completion : κ) :
    s.complete (.unsaveArticle url completion) false = some (s, [(completion, false)]) := by
  rw [complete_eq huser _ false rfl rfl fun _ => rfl, if_neg Bool.false_ne_true,
    react_matched_failed]

theorem complete_getSavedNews (huser : s.app.currentUser = some user) :
    s.complete .getSavedNews true = some ({ s with
      app := { s.app with news := { s.app.news with
        savedNews := (orderedBySavedAt (s.server.saved user.uid)).map
          fun document => document.data.fields.article
        savedUrls := (orderedBySavedAt (s.server.saved user.uid)).map
          fun document => document.data.url } } }, []) := by
  rw [complete_eq huser _ true rfl rfl fun _ => rfl, if_pos rfl, react_ordered]

end Complete

theorem foldl_delete_saved (deletes : List (Uid × DocumentId)) (server : Server) (uid : Uid) :
    (deletes.foldl (fun server delete => server.delete delete.1 delete.2) server).saved uid =
      (server.saved uid).filter fun document => !deletes.contains (uid, document.id) := by
  induction deletes generalizing server with
  | nil => simp
  | cons delete deletes ih =>
      obtain ⟨u, id⟩ := delete
      rw [List.foldl_cons, ih]
      by_cases hu : uid = u
      · subst hu
        rw [Server.saved_delete, List.filter_filter]
        refine List.filter_congr fun document _ => ?_
        by_cases hid : document.id = id <;> simp [hid]
      · rw [Server.saved_delete_of_ne _ hu]
        refine List.filter_congr fun document _ => ?_
        simp [hu]

/-! ## What a completion reports -/

inductive Change where
  | save (article : Article)
  | unsave (url : String)
deriving DecidableEq

def Change.operation : Change → Operation Unit
  | save article => .saveArticle article ()
  | unsave url => .unsaveArticle url ()

/-- What the completion of a change says is what became of the lists and of the
account's collection. -/
def Reported (uid : Uid) (before after : State Unit) : Change → Bool → Prop
  | _, false =>
      after.app.news.savedNews = before.app.news.savedNews ∧
        after.app.news.savedUrls = before.app.news.savedUrls ∧
        after.server.saved = before.server.saved
  | .save article, true =>
      (∃ document : SavedDocument, document.data = saveArticle.data article ∧
        after.server.saved = Function.update before.server.saved uid
          (before.server.saved uid ++ [document])) ∧
        after.app.news.savedNews.head? = some article
  | .unsave url, true =>
      (∀ document ∈ after.server.saved uid, document.data.url ≠ url) ∧
        url ∉ after.app.news.savedUrls

/-- The completion is right about the call, once the deletes have been answered. -/
def Change.Reports [Canonical] (change : Change) (app : App) (server : Server) (ok : Bool)
    (accepted : DocumentId → Bool) : Prop :=
  let before : State Unit := { app, server }
  ∀ user ∈ app.currentUser, ∀ after answers,
    before.complete change.operation ok = some (after, answers) →
      ∀ answer ∈ answers, Reported user.uid before (after.answerDeletes accepted) change answer.2

section Reports

variable [Canonical] {app : App} {server : Server} {user : User} {ok : Bool} {accepted : DocumentId → Bool}

/-- The one answer of a call that completes decides whether it reports rightly. -/
theorem reports_of_complete {change : Change} {after : State Unit} {reported : Bool}
    (huser : app.currentUser = some user)
    (hcomplete : ({ app, server } : State Unit).complete change.operation ok =
      some (after, [((), reported)])) :
    change.Reports app server ok accepted ↔
      Reported user.uid { app, server } (after.answerDeletes accepted) change reported := by
  constructor
  · intro hreports
    exact hreports user huser after _ hcomplete _ (List.mem_singleton_self _)
  · intro hreported user' huser' after' answers hcomplete' answer hanswer
    obtain rfl := Option.some.inj (huser.symm.trans huser')
    obtain ⟨rfl, rfl⟩ := Prod.mk.inj (Option.some.inj (hcomplete.symm.trans hcomplete'))
    obtain rfl := List.mem_singleton.mp hanswer
    exact hreported

theorem save_reports (huser : app.currentUser = some user) (article : Article) :
    (Change.save article).Reports app server ok accepted := by
  cases ok with
  | true =>
      rw [reports_of_complete huser (complete_save huser article ())]
      refine ⟨⟨server.newDocument (saveArticle.data article), rfl, ?_⟩, rfl⟩
      funext uid
      by_cases huid : uid = user.uid
      · subst huid
        rw [Function.update_self]
        exact Server.saved_add server user.uid _
      · rw [Function.update_of_ne huid]
        exact Server.saved_add_of_ne server huid _
  | false =>
      rw [reports_of_complete huser (complete_save_failed huser article ())]
      exact ⟨rfl, rfl, rfl⟩

theorem unsave_reports (huser : app.currentUser = some user) (url : String) :
    (Change.unsave url).Reports app server true accepted ↔
      ∀ document ∈ server.saved user.uid, document.data.url = url →
        accepted document.id = true := by
  rw [reports_of_complete huser (complete_unsave huser url ())]
  simp only [Reported, State.answerDeletes, foldl_delete_saved]
  constructor
  · rintro ⟨hgone, -⟩ document hmem hurl
    by_contra hrefused
    refine hgone document (List.mem_filter.mpr ⟨hmem, ?_⟩) hurl
    simp [hrefused]
  · intro haccepted
    refine ⟨fun document hmem hurl => ?_, by simp⟩
    obtain ⟨hmem, hleft⟩ := List.mem_filter.mp hmem
    have hdeleted := haccepted document hmem hurl
    simp only [Bool.not_eq_true', List.contains_eq_mem, decide_eq_false_iff_not] at hleft
    refine hleft (List.mem_filter.mpr ⟨?_, hdeleted⟩)
    exact List.mem_append_right _ (List.mem_map.mpr ⟨document, by simp [hmem, hurl], rfl⟩)

/-- **Reports.** For every state of the app and the server and all outcomes of the
server's steps, what the completion of a save or an unsave says is what happened, exactly
where an unsave whose query succeeds has all its deletes succeed. -/
theorem reports_iff (app : App) (server : Server) (change : Change) (ok : Bool)
    (accepted : DocumentId → Bool) :
    change.Reports app server ok accepted ↔
      ∀ user ∈ app.currentUser, ∀ url, change = .unsave url → ok = true →
        ∀ document ∈ server.saved user.uid, document.data.url = url →
          accepted document.id = true := by
  cases huser : app.currentUser with
  | none =>
      refine iff_of_true (fun user hmem => ?_) fun user hmem => by cases hmem
      rw [huser] at hmem
      cases hmem
  | some user =>
      simp only [Option.mem_some_iff, forall_eq']
      cases change with
      | save article => exact iff_of_true (save_reports huser article) fun url h => by cases h
      | unsave url =>
          simp only [Change.unsave.injEq, forall_eq']
          cases ok with
          | true => simpa using unsave_reports huser url
          | false =>
              refine iff_of_true ?_ fun h => by cases h
              rw [reports_of_complete huser (complete_unsave_failed huser url ())]
              exact ⟨rfl, rfl, rfl⟩

end Reports

def accountWithStory : Server := Server.empty.add reader.uid (saveArticle.data story)

def readerWithStory : App where
  currentUser := some reader
  news := { savedNews := [story], savedUrls := [story.key] }

/-- The query finds the story's document, whose delete is refused. -/
theorem not_reports_deleteRefused :
    ¬ ∀ (app : App) (server : Server) (change : Change) (ok : Bool)
      (accepted : DocumentId → Bool), change.Reports app server ok accepted := by
  intro h
  have huser : ({ currentUser := some reader } : App).currentUser = some reader := rfl
  have hreports := (unsave_reports huser story.key).mp
    (h { currentUser := some reader } accountWithStory (.unsave story.key) true fun _ => false)
  exact absurd (hreports ⟨0, saveArticle.data story, 0⟩ (by decide) (by decide)) (by decide)

/-! ## An unsave after a save -/

/-- The unsave names the article by its key, as all screens do, and all its deletes
succeed. -/
def saveThenUnsave [Canonical] (s : State Unit) (article : Article) : Option (State Unit) :=
  (s.complete (.saveArticle article ()) true).bind fun (saved, _) =>
    (saved.complete (.unsaveArticle article.key ()) true).map fun (unsaved, _) =>
      unsaved.answerDeletes fun _ => true

section Undo

variable {app : App} {server : Server} {user : User} {article : Article}

theorem matched_saved (hdocuments : ∀ document ∈ server.saved user.uid,
      document.data.url ≠ article.key) :
    ((server.add user.uid (saveArticle.data article)).saved user.uid).filter
      (fun document => document.data.url == article.key) =
        [server.newDocument (saveArticle.data article)] := by
  have hold : (server.saved user.uid).filter
      (fun document => document.data.url == article.key) = [] := by
    rw [List.filter_eq_nil_iff]
    intro document hmem
    simpa using hdocuments document hmem
  rw [Server.saved_add, List.filter_append, hold, List.nil_append, List.filter_cons_of_pos]
  · rfl
  · exact beq_self_eq_true article.key

theorem saved_add_delete (server : Server) (uid : Uid) (data : SavedData) :
    ((server.add uid data).delete uid server.nextId).saved = server.saved := by
  funext u
  by_cases hu : u = uid
  · subst hu
    have hnew : [server.newDocument data].filter (fun document => document.id != server.nextId) =
        [] := by simp [Server.newDocument]
    rw [Server.saved_delete, Server.saved_add, List.filter_append, hnew, List.append_nil,
      List.filter_eq_self]
    intro document hmem
    have hlt := server.fresh u document hmem
    simpa using Nat.ne_of_lt hlt
  · rw [Server.saved_delete_of_ne _ hu, Server.saved_add_of_ne _ hu]

theorem saveThenUnsave_eq [Canonical] (huser : app.currentUser = some user)
    (hdocuments : ∀ document ∈ server.saved user.uid, document.data.url ≠ article.key) :
    saveThenUnsave { app, server } article = some {
      app := { app with news := { app.news with
        savedNews := (article :: app.news.savedNews).filter fun a =>
          a.url.all fun url => !equal url article.key
        savedUrls := (app.news.savedUrls ++ [article.key]).filter
          fun url => !equal url article.key } }
      server := (server.add user.uid (saveArticle.data article)).delete user.uid server.nextId } := by
  have huser' : ({ app, server } : State Unit).app.currentUser = some user := huser
  rw [saveThenUnsave, complete_save huser', Option.bind_some]
  simp only
  rw [complete_unsave huser]
  simp only [matched_saved hdocuments, Option.map_some, State.answerDeletes, List.nil_append,
    List.map_cons, List.map_nil, List.filter_cons_of_pos, List.filter_nil, List.foldl_cons,
    List.foldl_nil]
  rfl

theorem filter_saved [Canonical]
    (hnews : ∀ a ∈ app.news.savedNews, equal a.key article.key = false) :
    (article :: app.news.savedNews).filter
        (fun a => a.url.all fun url => !equal url article.key) =
      if article.url.isSome then app.news.savedNews else article :: app.news.savedNews := by
  have hold : app.news.savedNews.filter (fun a => a.url.all fun url => !equal url article.key) =
      app.news.savedNews := by
    rw [List.filter_eq_self]
    intro a hmem
    have hkey := hnews a hmem
    cases hurl : a.url with
    | none => rfl
    | some url =>
        rw [Article.key, hurl, Option.getD_some] at hkey
        simp [hkey]
  cases hurl : article.url with
  | none =>
      rw [List.filter_cons_of_pos (by simp [hurl]), hold]
      rfl
  | some url =>
      have hkey : article.key = url := by rw [Article.key, hurl, Option.getD_some]
      rw [List.filter_cons_of_neg (by simp [hurl, hkey]), hold]
      rfl

/-- **Undo.** In every state where nothing stands for the article yet, a save and an unsave
after it restore the collection and both lists exactly where the article has a url. -/
theorem unsave_undoes_save [Canonical] (huser : app.currentUser = some user)
    (hdocuments : ∀ document ∈ server.saved user.uid, document.data.url ≠ article.key)
    (hnews : ∀ a ∈ app.news.savedNews, equal a.key article.key = false)
    (hurls : ∀ url ∈ app.news.savedUrls, equal url article.key = false) :
    (∃ t, saveThenUnsave { app, server } article = some t ∧ t.server.saved = server.saved ∧
      t.app.news.savedNews = app.news.savedNews ∧ t.app.news.savedUrls = app.news.savedUrls) ↔
      article.url.isSome := by
  rw [saveThenUnsave_eq huser hdocuments]
  simp only [Option.some.injEq, exists_eq_left']
  have hurls' : (app.news.savedUrls ++ [article.key]).filter (fun url => !equal url article.key) =
      app.news.savedUrls := by
    rw [List.filter_append, List.filter_cons_of_neg (by simp), List.filter_nil, List.append_nil,
      List.filter_eq_self]
    intro url hmem
    rw [hurls url hmem]
    rfl
  rw [saved_add_delete, hurls', filter_saved hnews]
  cases article.url.isSome <;> simp

/-- The report is saved and unsaved again by a reader who has saved the story. -/
theorem unsave_undoes_save_report :
    (∃ t, saveThenUnsave { app := readerWithStory, server := accountWithStory } report = some t ∧
      t.server.saved = accountWithStory.saved ∧ t.app.news.savedNews = [story] ∧
        t.app.news.savedUrls = [story.key]) ↔ report.url.isSome := by
  refine unsave_undoes_save rfl ?_ ?_ ?_
  · decide +kernel
  · decide +kernel
  · decide +kernel

/-- The saved list keeps an article without a url when it is unsaved. -/
theorem unsave_leaves_missingUrl :
    ¬ ∀ (app : App) (server : Server) (user : User) (article : Article),
      app.currentUser = some user →
      (∀ document ∈ server.saved user.uid, document.data.url ≠ article.key) →
      (∀ a ∈ app.news.savedNews, a.key ≠ article.key) → article.key ∉ app.news.savedUrls →
      ∃ t, saveThenUnsave { app, server } article = some t ∧ t.server.saved = server.saved ∧
        t.app.news.savedNews = app.news.savedNews ∧
        t.app.news.savedUrls = app.news.savedUrls := by
  intro h
  obtain ⟨t, ht, -, hnews, -⟩ := h { currentUser := some reader } Server.empty reader
    (.titled "Story") rfl (fun document hmem => by cases hmem) (fun a hmem => by cases hmem)
    (by decide)
  have hkept : ∀ t ∈ saveThenUnsave emptyStart (.titled "Story"), t.app.news.savedNews ≠ [] := by
    decide +kernel
  exact hkept t ht hnews

end Undo

end NewsFlash.SavedStore
