import NewsFlash.Library.Tracking
import NewsFlash.SavedStore.Machine

/-!
# Coherence of the saved urls

`News.shared.savedUrls` is the client's copy of the urls that the server holds
for the signed-in account. Each closure edits or replaces the copy without
looking at the other requests in flight, so an answer that comes too late
damages it. `Timely` says which answers come in time; a run in which all of them
do keeps the copy exact, up to what is still in flight.
-/

namespace NewsFlash.SavedStore

open NewsFlash.Library NewsFlash.Models NewsFlash.Models.Networking

variable {κ : Type}

/-! ## The copy and what is in flight -/

namespace State

/-- The documents of an account that no outstanding delete will take away. -/
def standing (s : State κ) (uid : Uid) : List SavedDocument :=
  (s.server.saved uid).filter fun document => !s.deletes.contains (uid, document.id)

def standingUrls (s : State κ) (uid : Uid) : List String :=
  (s.standing uid).map fun document => document.data.url

/-- The urls of the saves that the server has executed and whose closures have
yet to run. -/
def landedUrls (s : State κ) : List String :=
  (s.ready.filterMap Reply.landed).map fun document => document.data.url

/-- The saved urls are, as a set, the urls on the server. -/
def Coherent (uid : Uid) (s : State κ) : Prop :=
  ∀ url, url ∈ s.app.news.savedUrls ↔ url ∈ (s.server.saved uid).map fun d => d.data.url

/-- Every saved article stands for one of the saved urls. -/
def Covered (s : State κ) : Prop :=
  ∀ article ∈ s.app.news.savedNews, article.key ∈ s.app.news.savedUrls

instance (s : State κ) : Decidable s.Covered :=
  inferInstanceAs (Decidable (∀ article ∈ _, _))

theorem mem_standing {s : State κ} {uid : Uid} {document : SavedDocument} :
    document ∈ s.standing uid ↔
      document ∈ s.server.saved uid ∧ (uid, document.id) ∉ s.deletes := by
  simp [standing]

theorem mem_standingUrls {s : State κ} {uid : Uid} {url : String} :
    url ∈ s.standingUrls uid ↔ ∃ document ∈ s.standing uid, document.data.url = url := by
  simp [standingUrls]

theorem mem_landedUrls {s : State κ} {url : String} :
    url ∈ s.landedUrls ↔
      ∃ reply ∈ s.ready, ∃ document, reply.landed = some document ∧ document.data.url = url := by
  rw [landedUrls, List.mem_map]
  constructor
  · rintro ⟨document, hd, rfl⟩
    obtain ⟨reply, hr, hl⟩ := List.mem_filterMap.mp hd
    exact ⟨reply, hr, document, hl, rfl⟩
  · rintro ⟨reply, hr, document, hl, rfl⟩
    exact ⟨document, List.mem_filterMap.mpr ⟨reply, hr, hl⟩, rfl⟩

end State

/-! ## Answers that come in time -/

/-- An answer comes in time where it still fits what the server holds:
a save's document, or another one with its url, is still there and not to be
deleted; an unsave's query saw every such document whose url the client takes for
its own, unless a save of that url has yet to be reported, and the saved articles
hold none whose missing url stands for that one; a listing has the urls of the
documents that are there, unless a save of the url has yet to be reported. -/
def TimelyReply [Canonical] (uid : Uid) (s : State κ) : Reply κ → Prop
  | .added _ _ _ (some document) => document.data.url ∈ s.standingUrls uid
  -- The server finds the documents of this very url, the client drops all equal ones.
  | .matched _ url _ (some documents) =>
      (∀ document ∈ s.standing uid, equal document.data.url url = true →
        document.id ∈ documents.map SavedDocument.id ∨ document.data.url ∈ s.landedUrls) ∧
      ∀ article ∈ s.app.news.savedNews, article.url = none → equal article.key url = true →
        article.key ∈ s.landedUrls
  | .ordered _ (some documents) | .listed _ (some documents) =>
      (∀ document ∈ documents, document.data.url ∈ s.standingUrls uid) ∧
      ∀ url ∈ s.standingUrls uid,
        url ∈ (documents.map fun document => document.data.url) ∨ url ∈ s.landedUrls
  | _ => True

def Timely [Canonical] (uid : Uid) (s : State κ) : Action κ → Prop
  | .deliver j => ∀ picked ∈ pick s.ready j, TimelyReply uid s picked.1
  | _ => True

instance [Canonical] (uid : Uid) (s : State κ) :
    (reply : Reply κ) → Decidable (TimelyReply uid s reply)
  | .added _ _ _ (some _) => inferInstanceAs (Decidable (_ ∈ _))
  | .matched _ _ _ (some _) =>
      inferInstanceAs (Decidable ((∀ _ ∈ _, _ → _ ∨ _) ∧ ∀ _ ∈ _, _ → _ → _ ∈ _))
  | .ordered _ (some _) | .listed _ (some _) =>
      inferInstanceAs (Decidable ((∀ _ ∈ _, _ ∈ _) ∧ ∀ _ ∈ _, _ ∨ _))
  | .added _ _ _ none | .matched _ _ _ none | .ordered _ none | .listed _ none =>
      inferInstanceAs (Decidable True)

instance [Canonical] (uid : Uid) (s : State κ) : (a : Action κ) → Decidable (Timely uid s a)
  | .deliver _ => inferInstanceAs (Decidable (∀ _ ∈ _, _))
  | .call _ | .execute _ _ | .delete _ _ => inferInstanceAs (Decidable True)

/-! ## The invariant -/

/-- What one account's saved articles keep while requests are in flight. -/
structure CoherenceInv (user : User) (s : State κ) : Prop where
  deletesOld : ∀ entry ∈ s.deletes, entry.2 < s.server.nextId
  added : ∀ uid article completion document,
    Reply.added uid article completion (some document) ∈ s.ready →
      document.data.url = article.key
  matched : ∀ uid url completion documents,
    Reply.matched uid url completion (some documents) ∈ s.ready →
      ∀ document ∈ documents, document.id < s.server.nextId ∧
        ∀ d ∈ s.server.saved user.uid, d.id = document.id → d.data.url = url
  tracks : Tracks {url | url ∈ s.app.news.savedUrls} {url | url ∈ s.standingUrls user.uid}
    {url | url ∈ s.landedUrls}
  covered : ∀ article ∈ s.app.news.savedNews,
    article.key ∈ s.app.news.savedUrls ∨ article.key ∈ s.landedUrls

section Steps

variable {user : User} {s s' : State κ}

theorem mem_standing_add (hinv : CoherenceInv user s) (data : SavedData)
    (document : SavedDocument) :
    document ∈ ({ s with server := s.server.add user.uid data } : State κ).standing user.uid ↔
      document ∈ s.standing user.uid ∨ document = s.server.newDocument data := by
  rw [State.mem_standing, State.mem_standing]
  change document ∈ (s.server.add user.uid data).saved user.uid ∧ _ ↔ _
  rw [Server.saved_add, List.mem_append, List.mem_singleton]
  constructor
  · rintro ⟨hd | hd, hnot⟩
    · exact Or.inl ⟨hd, hnot⟩
    · exact Or.inr hd
  · rintro (⟨hd, hnot⟩ | rfl)
    · exact ⟨Or.inl hd, hnot⟩
    · refine ⟨Or.inr rfl, fun hdel => ?_⟩
      exact Nat.lt_irrefl _ (hinv.deletesOld _ hdel)

/-- Executing an outstanding delete takes away no standing document. -/
theorem standing_delete {uid : Uid} {id : DocumentId} (hmem : (uid, id) ∈ s.deletes) (u : Uid) :
    ({ s with
      server := s.server.delete uid id
      deletes := s.deletes.erase (uid, id) } : State κ).standing u = s.standing u := by
  unfold State.standing
  by_cases hu : u = uid
  · subst hu
    change ((s.server.delete u id).saved u).filter _ = _
    rw [Server.saved_delete, List.filter_filter]
    apply List.filter_congr
    intro document _
    by_cases hid : document.id = id
    · subst hid
      simp [hmem]
    · have hne : (u, document.id) ≠ (u, id) := fun h => hid (Prod.mk.inj h).2
      simp [hid, List.mem_erase_of_ne hne]
  · change ((s.server.delete uid id).saved u).filter _ = _
    rw [Server.saved_delete_of_ne _ hu]
    apply List.filter_congr
    intro document _
    have hne : (u, document.id) ≠ (uid, id) := fun h => hu (Prod.mk.inj h).1
    simp [List.mem_erase_of_ne hne]

theorem coherenceInv_call [Canonical] {operation : Operation κ} {answers : List (κ × Bool)}
    (huser : s.app.currentUser = some user) (hinv : CoherenceInv user s)
    (h : s.act (.call operation) = some (s', answers)) : CoherenceInv user s' := by
  rw [act_call huser] at h
  obtain ⟨rfl, rfl⟩ := Prod.mk.inj (Option.some.inj h)
  exact { hinv with }

theorem coherenceInv_ready {reply : Reply κ} (hinv : CoherenceInv user s)
    (hlanded : reply.landed = none)
    (hmatched : ∀ uid url completion documents,
      reply = .matched uid url completion (some documents) →
        ∀ document ∈ documents, document ∈ s.server.saved user.uid ∧ document.data.url = url) :
    CoherenceInv user { s with ready := s.ready ++ [reply] } := by
  have hurls : ({ s with ready := s.ready ++ [reply] } : State κ).landedUrls = s.landedUrls := by
    simp [State.landedUrls, hlanded]
  refine { hinv with added := ?_, matched := ?_, tracks := ?_, covered := ?_ }
  · intro uid article completion document hr
    rcases List.mem_append.mp hr with hr | hr
    · exact hinv.added uid article completion document hr
    · rw [← List.mem_singleton.mp hr] at hlanded
      cases hlanded
  · intro uid url completion documents hr document hd
    rcases List.mem_append.mp hr with hr | hr
    · exact hinv.matched uid url completion documents hr document hd
    · obtain ⟨hsaved, hurl⟩ :=
        hmatched uid url completion documents (List.mem_singleton.mp hr).symm document hd
      refine ⟨s.server.fresh user.uid document hsaved, fun d hd hid => ?_⟩
      rw [Server.eq_of_id_eq hd hsaved hid]
      exact hurl
  · rw [hurls]
    exact hinv.tracks
  · rw [hurls]
    exact hinv.covered

theorem coherenceInv_added {article : Article} {completion : κ} (hinv : CoherenceInv user s) :
    CoherenceInv user (s.executed (.addDocument user.uid article completion) true) := by
  simp only [State.executed, if_true]
  set data := saveArticle.data article
  set s' : State κ := { s with
    server := s.server.add user.uid data
    ready := s.ready ++ [.added user.uid article completion (some (s.server.newDocument data))] }
  have hstanding : {url | url ∈ s'.standingUrls user.uid} =
      insert data.url {url | url ∈ s.standingUrls user.uid} := by
    ext url
    change url ∈ s'.standingUrls user.uid ↔ url = data.url ∨ url ∈ s.standingUrls user.uid
    rw [State.mem_standingUrls, State.mem_standingUrls]
    constructor
    · rintro ⟨d, hd, rfl⟩
      rcases (mem_standing_add hinv data d).mp hd with hd | rfl
      · exact Or.inr ⟨d, hd, rfl⟩
      · exact Or.inl rfl
    · rintro (rfl | ⟨d, hd, rfl⟩)
      · exact ⟨_, (mem_standing_add hinv data _).mpr (Or.inr rfl), rfl⟩
      · exact ⟨d, (mem_standing_add hinv data d).mpr (Or.inl hd), rfl⟩
  have hlanded : {url | url ∈ s'.landedUrls} = insert data.url {url | url ∈ s.landedUrls} := by
    ext url
    simp [s', State.landedUrls, Reply.landed, Server.newDocument, or_comm]
  refine { hinv with deletesOld := ?_, added := ?_, matched := ?_, tracks := ?_, covered := ?_ }
  · intro entry he
    exact Nat.lt_succ_of_lt (hinv.deletesOld entry he)
  · intro uid a c d hr
    rcases List.mem_append.mp hr with hr | hr
    · exact hinv.added uid a c d hr
    · cases List.mem_singleton.mp hr
      rfl
  · intro uid url c ds hr d hd
    rcases List.mem_append.mp hr with hr | hr
    · obtain ⟨hlt, hurl⟩ := hinv.matched uid url c ds hr d hd
      refine ⟨Nat.lt_succ_of_lt hlt, fun d' hd' hid => ?_⟩
      change d' ∈ (s.server.add user.uid data).saved user.uid at hd'
      rw [Server.saved_add, List.mem_append, List.mem_singleton] at hd'
      rcases hd' with hd' | rfl
      · exact hurl d' hd' hid
      · exact absurd hid.symm (Nat.ne_of_lt hlt)
    · cases List.mem_singleton.mp hr
  · rw [hstanding, hlanded]
    exact hinv.tracks.land data.url
  · intro a ha
    rcases hinv.covered a ha with hc | hl
    · exact Or.inl hc
    · exact Or.inr (hlanded.symm.subset (Or.inr hl))

theorem coherenceInv_execute [Canonical] {i : Nat} {ok : Bool} {answers : List (κ × Bool)}
    (haccount : OneAccount user s) (hinv : CoherenceInv user s)
    (h : s.act (.execute i ok) = some (s', answers)) : CoherenceInv user s' := by
  obtain ⟨request, waiting, hpick, rfl, -⟩ := act_execute h
  have huid : requestUid request = user.uid := (haccount.requests request (mem_of_pick hpick)).2
  have hinv : CoherenceInv user { s with waiting := waiting } := { hinv with }
  clear hpick h
  cases request with
  | addDocument uid article completion =>
      obtain rfl : uid = user.uid := huid
      cases ok with
      | true => exact coherenceInv_added hinv
      | false => exact coherenceInv_ready hinv rfl (by simp)
  | whereUrl uid url completion =>
      obtain rfl : uid = user.uid := huid
      refine coherenceInv_ready hinv rfl ?_
      intro _ _ _ documents heq document hd
      cases ok with
      | true =>
          obtain ⟨-, rfl, -, hdocs⟩ := Reply.matched.inj heq
          obtain rfl := Option.some.inj hdocs
          simpa using hd
      | false => cases heq
  | orderedBySavedAt uid =>
      exact coherenceInv_ready hinv rfl (by simp)
  | getDocuments uid =>
      exact coherenceInv_ready hinv rfl (by simp)
  | delete uid id => exact hinv

theorem coherenceInv_delete [Canonical] {uid : Uid} {id : DocumentId} {answers : List (κ × Bool)}
    (hinv : CoherenceInv user s) (h : s.act (.delete uid id) = some (s', answers)) :
    CoherenceInv user s' := by
  obtain ⟨hmem, -, rfl⟩ := act_delete h
  refine { hinv with deletesOld := ?_, matched := ?_, tracks := ?_ }
  · intro entry he
    exact hinv.deletesOld entry (List.mem_of_mem_erase he)
  · intro u url completion documents hr document hd
    obtain ⟨hlt, hurl⟩ := hinv.matched u url completion documents hr document hd
    exact ⟨hlt, fun d hd' hid => hurl d (Server.mem_saved_delete hd') hid⟩
  · unfold State.standingUrls
    rw [standing_delete hmem]
    exact hinv.tracks

theorem landedUrls_of_pick {j : Nat} {reply : Reply κ} {ready : List (Reply κ)}
    (hpick : pick s.ready j = some (reply, ready)) {url : String} (hurl : url ∈ s.landedUrls) :
    (∃ document, reply.landed = some document ∧ document.data.url = url) ∨
      url ∈ ({ s with ready := ready } : State κ).landedUrls := by
  obtain ⟨r, hr, document, hl, hu⟩ := State.mem_landedUrls.mp hurl
  rcases List.mem_cons.mp ((pick_perm hpick).mem_iff.mp hr) with rfl | hr
  · exact Or.inl ⟨document, hl, hu⟩
  · exact Or.inr (State.mem_landedUrls.mpr ⟨r, hr, document, hl, hu⟩)

theorem coherenceInv_take {ready : List (Reply κ)} (hinv : CoherenceInv user s)
    (hready : ∀ reply ∈ ready, reply ∈ s.ready)
    (hlanded : ∀ url ∈ s.landedUrls, url ∈ ({ s with ready := ready } : State κ).landedUrls) :
    CoherenceInv user { s with ready := ready } := by
  refine { hinv with added := ?_, matched := ?_, tracks := ?_, covered := ?_ }
  · intro uid article completion document hr
    exact hinv.added uid article completion document (hready _ hr)
  · intro uid url completion documents hr
    exact hinv.matched uid url completion documents (hready _ hr)
  · exact ⟨hinv.tracks.sound, fun url hu => (hinv.tracks.complete hu).imp_right (hlanded url)⟩
  · intro article ha
    exact (hinv.covered article ha).imp_right (hlanded _)

theorem coherenceInv_saved {ready : List (Reply κ)} {article : Article}
    {document : SavedDocument} (hinv : CoherenceInv user s)
    (hready : ∀ reply ∈ ready, reply ∈ s.ready)
    (hlanded : ∀ url ∈ s.landedUrls, document.data.url = url ∨
      url ∈ ({ s with ready := ready } : State κ).landedUrls)
    (hurl : document.data.url = article.key)
    (hstands : document.data.url ∈ s.standingUrls user.uid) :
    CoherenceInv user { s with
      ready := ready
      app := { s.app with news := { s.app.news with
        savedNews := article :: s.app.news.savedNews
        savedUrls := s.app.news.savedUrls ++ [article.key] } } } := by
  have hcopy : {url | url ∈ s.app.news.savedUrls ++ [article.key]} =
      insert article.key {url | url ∈ s.app.news.savedUrls} := by
    ext url
    simp [or_comm]
  refine { hinv with added := ?_, matched := ?_, tracks := ?_, covered := ?_ }
  · intro uid a completion d hr
    exact hinv.added uid a completion d (hready _ hr)
  · intro uid url completion documents hr
    exact hinv.matched uid url completion documents (hready _ hr)
  · change Tracks {url | url ∈ s.app.news.savedUrls ++ [article.key]} _ _
    rw [hcopy, ← hurl]
    refine hinv.tracks.learn hstands ?_
    intro url hu
    rcases hlanded url hu with h | h
    · exact Or.inl h.symm
    · exact Or.inr h
  · intro a ha
    change a.key ∈ s.app.news.savedUrls ++ [article.key] ∨ _
    rw [List.mem_append, List.mem_singleton]
    rcases List.mem_cons.mp ha with rfl | ha
    · exact Or.inl (Or.inr rfl)
    · rcases hinv.covered a ha with hc | hl
      · exact Or.inl (Or.inl hc)
      · rcases hlanded _ hl with h | h
        · exact Or.inl (Or.inr (h.symm.trans hurl))
        · exact Or.inr h

theorem coherenceInv_unsaved [Canonical] {uid : Uid} {url : String} (completion : κ)
    {documents : List SavedDocument} (hinv : CoherenceInv user s) (huid : uid = user.uid)
    (hdocs : ∀ document ∈ documents, document.id < s.server.nextId ∧
      ∀ d ∈ s.server.saved user.uid, d.id = document.id → d.data.url = url)
    (htimely : TimelyReply user.uid s (.matched uid url completion (some documents))) :
    CoherenceInv user { s with
      app := { s.app with news := { s.app.news with
        savedNews := s.app.news.savedNews.filter fun article =>
          article.url.all fun articleUrl => !equal articleUrl url
        savedUrls := s.app.news.savedUrls.filter fun savedUrl => !equal savedUrl url } }
      deletes := s.deletes ++ documents.map fun document => (uid, document.id) } := by
  subst huid
  obtain ⟨hseen, hnil⟩ := htimely
  set s' : State κ := { s with
    app := { s.app with news := { s.app.news with
      savedNews := s.app.news.savedNews.filter fun article =>
        article.url.all fun articleUrl => !equal articleUrl url
      savedUrls := s.app.news.savedUrls.filter fun savedUrl => !equal savedUrl url } }
    deletes := s.deletes ++ documents.map fun document => (user.uid, document.id) }
  have hstanding : ∀ d, d ∈ s'.standing user.uid ↔
      d ∈ s.standing user.uid ∧ d.id ∉ documents.map SavedDocument.id := by
    intro d
    simp [s', State.mem_standing, and_assoc]
  have hcopy : {u | u ∈ s'.app.news.savedUrls} =
      {u ∈ {u | u ∈ s.app.news.savedUrls} | u ∉ {u | equal u url = true}} := by
    ext u
    simp [s']
  refine { hinv with deletesOld := ?_, tracks := ?_, covered := ?_ }
  · intro entry he
    rcases List.mem_append.mp he with he | he
    · exact hinv.deletesOld entry he
    · obtain ⟨document, hd, rfl⟩ := List.mem_map.mp he
      exact (hdocs document hd).1
  · rw [hcopy]
    apply hinv.tracks.drop
    · intro u hu
      obtain ⟨d, hd, rfl⟩ := State.mem_standingUrls.mp hu
      exact State.mem_standingUrls.mpr ⟨d, ((hstanding d).mp hd).1, rfl⟩
    · -- a document of a url that differs is not among those to be deleted
      intro u hu hne
      obtain ⟨d, hd, rfl⟩ := State.mem_standingUrls.mp hu
      refine State.mem_standingUrls.mpr ⟨d, (hstanding d).mpr ⟨hd, fun hid => hne ?_⟩, rfl⟩
      obtain ⟨document, hmem, hid⟩ := List.mem_map.mp hid
      exact equal_of_eq ((hdocs document hmem).2 d (State.mem_standing.mp hd).1 hid.symm)
    · intro u hu hequal
      obtain ⟨d, hd, rfl⟩ := State.mem_standingUrls.mp hu
      obtain ⟨hd, hid⟩ := (hstanding d).mp hd
      exact (hseen d hd hequal).resolve_left hid
  · intro article ha
    obtain ⟨ha, hkept⟩ := List.mem_filter.mp ha
    rcases hinv.covered article ha with hc | hl
    · by_cases hkey : equal article.key url = true
      · -- only an article without a url keeps the key through the filter
        have hnone : article.url = none := by
          cases h : article.url with
          | none => rfl
          | some u =>
              rw [Article.key, h, Option.getD_some] at hkey
              simp [h, hkey] at hkept
        exact Or.inr (hnil article ha hnone hkey)
      · exact Or.inl (List.mem_filter.mpr ⟨hc, by simpa using hkey⟩)
    · exact Or.inr hl

/-- A listing that comes in time is a fresh copy. -/
theorem tracks_listing {documents : List SavedDocument}
    (hsound : ∀ document ∈ documents, document.data.url ∈ s.standingUrls user.uid)
    (hcomplete : ∀ url ∈ s.standingUrls user.uid,
      url ∈ (documents.map fun document => document.data.url) ∨ url ∈ s.landedUrls) :
    Tracks {url | url ∈ documents.map fun document => document.data.url}
      {url | url ∈ s.standingUrls user.uid} {url | url ∈ s.landedUrls} := by
  refine ⟨fun url hu => ?_, hcomplete⟩
  obtain ⟨document, hd, rfl⟩ := List.mem_map.mp hu
  exact hsound document hd

theorem coherenceInv_ordered [Canonical] {ready : List (Reply κ)} {uid : Uid}
    {documents : Option (List SavedDocument)} {answers : List (κ × Bool)}
    (htaken : CoherenceInv user { s with ready := ready })
    (hreply : TimelyReply user.uid s (.ordered uid documents))
    (hsame : ∀ url ∈ s.landedUrls, url ∈ ({ s with ready := ready } : State κ).landedUrls)
    (h : ({ s with ready := ready } : State κ).react (Reply.ordered uid documents).closure =
      some (s', answers)) : CoherenceInv user s' := by
  cases documents with
  | none =>
      rw [react_ordered_failed] at h
      obtain ⟨rfl, -⟩ := Prod.mk.inj (Option.some.inj h)
      exact { htaken with covered := by simp }
  | some documents =>
      rw [react_ordered] at h
      obtain ⟨rfl, -⟩ := Prod.mk.inj (Option.some.inj h)
      refine { htaken with tracks := ?_, covered := ?_ }
      · exact tracks_listing (s := { s with ready := ready }) hreply.1
          fun url hu => (hreply.2 url hu).imp_right (hsame url)
      · intro article ha
        obtain ⟨document, hd, rfl⟩ := List.mem_map.mp ha
        exact Or.inl (List.mem_map.mpr ⟨document, hd, rfl⟩)

/-- The closure of `updateSavedUrls`: a covered article stands on the server, so the
listing has its url. -/
theorem coherenceInv_listed [Canonical] {ready : List (Reply κ)} {uid : Uid}
    {documents : Option (List SavedDocument)} {answers : List (κ × Bool)}
    (hinv : CoherenceInv user s) (htaken : CoherenceInv user { s with ready := ready })
    (hreply : TimelyReply user.uid s (.listed uid documents))
    (hsame : ∀ url ∈ s.landedUrls, url ∈ ({ s with ready := ready } : State κ).landedUrls)
    (h : ({ s with ready := ready } : State κ).react (Reply.listed uid documents).closure =
      some (s', answers)) : CoherenceInv user s' := by
  cases documents with
  | none =>
      rw [react_listed_failed] at h
      obtain ⟨rfl, -⟩ := Prod.mk.inj (Option.some.inj h)
      exact htaken
  | some documents =>
      rw [react_listed] at h
      obtain ⟨rfl, -⟩ := Prod.mk.inj (Option.some.inj h)
      refine { htaken with tracks := ?_, covered := ?_ }
      · exact tracks_listing (s := { s with ready := ready }) hreply.1
          fun url hu => (hreply.2 url hu).imp_right (hsame url)
      · intro article ha
        rcases hinv.covered article ha with hc | hl
        · exact (hreply.2 _ (hinv.tracks.sound hc)).imp_right (hsame _)
        · exact Or.inr (hsame _ hl)

/-- The closure of a delivered answer starts from a state without that answer.
What had landed and is not the answer's own document is still known to be. -/
theorem coherenceInv_deliver [Canonical] {j : Nat} {answers : List (κ × Bool)}
    (haccount : OneAccount user s) (hinv : CoherenceInv user s)
    (htimely : Timely user.uid s (.deliver j))
    (h : s.act (.deliver j) = some (s', answers)) : CoherenceInv user s' := by
  obtain ⟨reply, ready, hpick, hreact⟩ := act_deliver h
  have hreply : TimelyReply user.uid s reply := htimely (reply, ready) hpick
  have hmem : reply ∈ s.ready := mem_of_pick hpick
  have hready : ∀ r ∈ ready, r ∈ s.ready := fun r hr => mem_of_mem_pick hpick hr
  have huid : reply.uid = user.uid := haccount.replies reply hmem
  have hlanded : ∀ url ∈ s.landedUrls,
      (∃ document, reply.landed = some document ∧ document.data.url = url) ∨
        url ∈ ({ s with ready := ready } : State κ).landedUrls :=
    fun url => landedUrls_of_pick hpick
  have hsame : reply.landed = none →
      ∀ url ∈ s.landedUrls, url ∈ ({ s with ready := ready } : State κ).landedUrls := by
    intro hnone url hu
    rcases hlanded url hu with ⟨document, hd, -⟩ | hu
    · rw [hnone] at hd
      cases hd
    · exact hu
  have htaken : reply.landed = none → CoherenceInv user { s with ready := ready } :=
    fun hnone => coherenceInv_take hinv hready (hsame hnone)
  cases reply with
  | added uid article completion document =>
      cases document with
      | none =>
          rw [react_added_failed] at hreact
          obtain ⟨rfl, -⟩ := Prod.mk.inj (Option.some.inj hreact)
          exact htaken rfl
      | some document =>
          rw [react_added] at hreact
          obtain ⟨rfl, -⟩ := Prod.mk.inj (Option.some.inj hreact)
          refine coherenceInv_saved (s := s) hinv hready ?_ (hinv.added _ _ _ _ hmem) hreply
          intro url hu
          rcases hlanded url hu with ⟨d, hd, hdu⟩ | hu
          · obtain rfl := Option.some.inj hd
            exact Or.inl hdu
          · exact Or.inr hu
  | matched uid url completion documents =>
      cases documents with
      | none =>
          rw [react_matched_failed] at hreact
          obtain ⟨rfl, -⟩ := Prod.mk.inj (Option.some.inj hreact)
          exact htaken rfl
      | some documents =>
          rw [react_matched] at hreact
          obtain ⟨rfl, -⟩ := Prod.mk.inj (Option.some.inj hreact)
          refine coherenceInv_unsaved completion (htaken rfl) huid
            (hinv.matched _ _ _ _ hmem) ⟨?_, ?_⟩
          · intro document hd hu
            exact (hreply.1 document hd hu).imp_right (hsame rfl _)
          · intro article ha hnone hkey
            exact hsame rfl _ (hreply.2 article ha hnone hkey)
  | ordered uid documents =>
      exact coherenceInv_ordered (htaken rfl) hreply (hsame rfl) hreact
  | listed uid documents =>
      exact coherenceInv_listed hinv (htaken rfl) hreply (hsame rfl) hreact

end Steps

/-! ## Coherent runs -/

theorem coherenceInv_of_idle {user : User} {s : State κ} (hidle : s.Idle)
    (hcoherent : s.Coherent user.uid) (hcovered : s.Covered) : CoherenceInv user s := by
  obtain ⟨-, hready, hdeletes⟩ := hidle
  refine ⟨?_, ?_, ?_, ?_, ?_⟩
  · simp [hdeletes]
  · simp [hready]
  · simp [hready]
  · apply Tracks.of_eq
    ext url
    change url ∈ s.app.news.savedUrls ↔ url ∈ s.standingUrls user.uid
    rw [hcoherent url, State.standingUrls, State.standing, hdeletes]
    simp
  · exact fun article ha => Or.inl (hcovered article ha)

theorem coherent_of_coherenceInv {user : User} {s : State κ} (hidle : s.Idle)
    (hinv : CoherenceInv user s) : s.Coherent user.uid ∧ s.Covered := by
  obtain ⟨-, hready, hdeletes⟩ := hidle
  have hlanded : s.landedUrls = [] := by rw [State.landedUrls, hready]; rfl
  have hempty : {url | url ∈ s.landedUrls} = (∅ : Set String) := by
    rw [hlanded]
    ext url
    simp
  constructor
  · intro url
    have htracks := hinv.tracks
    rw [hempty] at htracks
    have hmem : url ∈ s.app.news.savedUrls ↔ url ∈ s.standingUrls user.uid :=
      Set.ext_iff.mp htracks.settled url
    rw [hmem, State.standingUrls, State.standing, hdeletes]
    simp
  · intro article ha
    rcases hinv.covered article ha with hc | hl
    · exact hc
    · rw [hlanded] at hl
      cases hl

theorem coherenceInv_step [Canonical] {user : User} {s s' : State κ} {a : Action κ}
    (hinv : OneAccount user s ∧ CoherenceInv user s) (htimely : Timely user.uid s a)
    (hstep : (machine κ).step s a = some s') : OneAccount user s' ∧ CoherenceInv user s' := by
  obtain ⟨haccount, hinv⟩ := hinv
  obtain ⟨answers, h⟩ := machine_step_eq_some.mp hstep
  refine ⟨oneAccount_step haccount hstep, ?_⟩
  cases a with
  | call operation => exact coherenceInv_call haccount.signedIn hinv h
  | execute i ok => exact coherenceInv_execute haccount hinv h
  | delete uid id => exact coherenceInv_delete hinv h
  | deliver j => exact coherenceInv_deliver haccount hinv htimely h

/-- **Coherence.** For a signed-in account whose saved urls agree with the
server, and whose saved articles are among them, every run of saves, unsaves,
fetches and url updates in which the delivered answers come in time ends, once
nothing is outstanding, with saved urls that agree with the server again, and
with every saved article among them. -/
theorem savedUrls_coherent [Canonical] {user : User} {s₀ s : State κ} {as : List (Action κ)}
    (hidle₀ : s₀.Idle) (huser : s₀.app.currentUser = some user)
    (hcoherent : s₀.Coherent user.uid) (hcovered : s₀.Covered)
    (htimely : (machine κ).Meets (Timely user.uid) s₀ as)
    (hrun : (machine κ).run s₀ as = some s) (hidle : s.Idle) :
    s.Coherent user.uid ∧ s.Covered := by
  have haccount₀ := oneAccount_of_idle hidle₀ huser
  have hinv₀ := coherenceInv_of_idle hidle₀ hcoherent hcovered
  have hinv : OneAccount user s ∧ CoherenceInv user s :=
    (machine κ).run_invariant coherenceInv_step ⟨haccount₀, hinv₀⟩ htimely hrun
  exact coherent_of_coherenceInv hidle hinv.2

/-! ## A run in time, and one with a late answer -/

def saveFetchUnsave : List (Action Unit) :=
  [.call (.saveArticle story ()), .execute 0 true, .deliver 0,
    .call .getSavedNews, .execute 0 true, .deliver 0,
    .call (.unsaveArticle story.key ()), .execute 0 true, .deliver 0, .delete "reader" 0]

theorem emptyStart_coherent : (emptyStart : State κ).Coherent reader.uid := fun _ => Iff.rfl

theorem savedUrls_coherent_saveFetchUnsave :
    ∃ s, (machine Unit).run emptyStart saveFetchUnsave = some s ∧
      s.Coherent reader.uid ∧ s.Covered := by
  have hends : ((machine Unit).run emptyStart saveFetchUnsave).isSome := by decide +kernel
  have hidle : ∀ s ∈ (machine Unit).run emptyStart saveFetchUnsave, s.Idle := by decide +kernel
  have htimely : (machine Unit).Meets (Timely reader.uid) emptyStart saveFetchUnsave := by
    decide +kernel
  obtain ⟨s, hs⟩ := Option.isSome_iff_exists.mp hends
  exact ⟨s, hs, savedUrls_coherent (by decide) rfl emptyStart_coherent (by decide) htimely hs
    (hidle s hs)⟩

/-- The listing is taken before the save reaches the server and delivered after
the save has been reported. -/
def listingOvertaken : List (Action Unit) :=
  [.call .getSavedNews, .execute 0 true, .call (.saveArticle story ()), .execute 0 true,
    .deliver 1, .deliver 0]

/-- The late listing wipes out the saved url while the document is on the server. -/
theorem savedUrls_incoherent :
    ¬ ∀ (user : User) (s₀ s : State Unit) (as : List (Action Unit)), s₀.Idle →
      s₀.app.currentUser = some user → s₀.Coherent user.uid → s₀.Covered →
      (machine Unit).run s₀ as = some s → s.Idle → s.Coherent user.uid ∧ s.Covered := by
  intro h
  have hends : ((machine Unit).run emptyStart listingOvertaken).isSome := by decide +kernel
  have hidle : ∀ s ∈ (machine Unit).run emptyStart listingOvertaken, s.Idle := by decide +kernel
  have hlost : ∀ s ∈ (machine Unit).run emptyStart listingOvertaken,
      story.key ∉ s.app.news.savedUrls ∧
        story.key ∈ (s.server.saved reader.uid).map fun d => d.data.url := by decide +kernel
  obtain ⟨s, hs⟩ := Option.isSome_iff_exists.mp hends
  have hcoherent := (h reader emptyStart s listingOvertaken (by decide) rfl emptyStart_coherent
    (by decide) hs (hidle s hs)).1
  obtain ⟨hmissing, hthere⟩ := hlost s hs
  exact hmissing ((hcoherent story.key).mpr hthere)

end NewsFlash.SavedStore
