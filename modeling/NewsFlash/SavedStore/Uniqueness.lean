import NewsFlash.SavedStore.Machine

/-!
# No article is saved twice

`saveArticle` adds a document without looking for an earlier one. Whether a tap
saves or unsaves is decided by the mark of the tapped cell or card, which is set
when the cell is rendered and when a completion arrives. `FirstSave` says which
steps keep the documents and the saved urls distinct; `Patient` says which taps
lead to such steps only.
-/

namespace NewsFlash.SavedStore

open NewsFlash.Library NewsFlash.Models NewsFlash.Models.Networking

variable {κ : Type}

/-! ## Distinct urls -/

def State.urls (s : State κ) (uid : Uid) : List String :=
  (s.server.saved uid).map fun document => document.data.url

/-- No two documents of the account, and no two saved urls, are the same. -/
def AtMostOnce (uid : Uid) (s : State κ) : Prop :=
  (s.urls uid).Nodup ∧ s.app.news.savedUrls.Nodup

/-- A successful add finds no document with the url, and a reported save finds
its url not yet among the saved ones. -/
def FirstSave (uid : Uid) (s : State κ) : Action κ → Prop
  | .execute i true => ∀ picked ∈ pick s.waiting i, match picked.1 with
      | .addDocument _ article _ => article.key ∉ s.urls uid
      | _ => True
  | .deliver j => ∀ picked ∈ pick s.ready j, match picked.1 with
      | .added _ article _ (some _) => article.key ∉ s.app.news.savedUrls
      | _ => True
  | _ => True

/-- The documents that a fetch brings have distinct urls. -/
def DistinctListings (s : State κ) : Prop :=
  ∀ uid documents,
    .ordered uid (some documents) ∈ s.ready ∨ .listed uid (some documents) ∈ s.ready →
      (documents.map fun document => document.data.url).Nodup

section Steps

variable {user : User} {s s' : State κ}

theorem urls_add (uid : Uid) (article : Article) :
    ({ s with server := s.server.add uid (saveArticle.data article) } : State κ).urls uid =
      s.urls uid ++ [article.key] := by
  unfold State.urls
  change ((s.server.add uid (saveArticle.data article)).saved uid).map _ = _
  rw [Server.saved_add, List.map_append]
  rfl

theorem urls_delete (u uid : Uid) (id : DocumentId) :
    List.Sublist (({ s with server := s.server.delete uid id } : State κ).urls u) (s.urls u) := by
  unfold State.urls
  change List.Sublist (((s.server.delete uid id).saved u).map _) _
  by_cases hu : u = uid
  · subst hu
    rw [Server.saved_delete]
    exact List.filter_sublist.map _
  · rw [Server.saved_delete_of_ne _ hu]

theorem distinctListings_concat {reply : Reply κ} (hdistinct : DistinctListings s)
    (hready : s'.ready = s.ready ++ [reply])
    (hreply : ∀ uid documents,
      reply = .ordered uid (some documents) ∨ reply = .listed uid (some documents) →
        (documents.map fun document => document.data.url).Nodup) : DistinctListings s' := by
  intro uid documents hmem
  rw [hready, List.mem_append, List.mem_append, List.mem_singleton, List.mem_singleton] at hmem
  rcases hmem with (hmem | hmem) | (hmem | hmem)
  · exact hdistinct uid documents (Or.inl hmem)
  · exact hreply uid documents (Or.inl hmem.symm)
  · exact hdistinct uid documents (Or.inr hmem)
  · exact hreply uid documents (Or.inr hmem.symm)

theorem distinctListings_execute {i : Nat} {ok : Bool} {answers : List (κ × Bool)}
    (haccount : OneAccount user s) (hdistinct : DistinctListings s)
    (honce : (s.urls user.uid).Nodup)
    (h : s.act (.execute i ok) = some (s', answers)) : DistinctListings s' := by
  obtain ⟨request, waiting, hpick, rfl, -⟩ := act_execute h
  have huid : requestUid request = user.uid := (haccount.requests request (mem_of_pick hpick)).2
  cases request with
  | addDocument uid article completion =>
      cases ok with
      | true => exact distinctListings_concat hdistinct rfl (by rintro _ _ (h | h) <;> cases h)
      | false => exact distinctListings_concat hdistinct rfl (by rintro _ _ (h | h) <;> cases h)
  | whereUrl uid url completion =>
      exact distinctListings_concat hdistinct rfl (by rintro _ _ (h | h) <;> cases h)
  | orderedBySavedAt uid =>
      obtain rfl : uid = user.uid := huid
      refine distinctListings_concat hdistinct rfl ?_
      rintro _ documents (hdocs | hdocs)
      · cases ok with
        | true =>
            obtain ⟨-, hsome⟩ := Reply.ordered.inj hdocs
            obtain rfl := Option.some.inj hsome
            have hperm : (orderedBySavedAt (s.server.saved user.uid)).Perm
                (s.server.saved user.uid) := List.perm_insertionSort _ _
            exact (hperm.map _).nodup_iff.mpr honce
        | false => cases hdocs
      · cases hdocs
  | getDocuments uid =>
      obtain rfl : uid = user.uid := huid
      refine distinctListings_concat hdistinct rfl ?_
      rintro _ documents (hdocs | hdocs)
      · cases hdocs
      · cases ok with
        | true =>
            obtain ⟨-, hsome⟩ := Reply.listed.inj hdocs
            obtain rfl := Option.some.inj hsome
            exact honce
        | false => cases hdocs
  | delete uid id => exact hdistinct

theorem distinctListings_step {a : Action κ} (haccount : OneAccount user s)
    (hdistinct : DistinctListings s) (honce : AtMostOnce user.uid s)
    (hstep : (machine κ).step s a = some s') : DistinctListings s' := by
  obtain ⟨answers, h⟩ := machine_step_eq_some.mp hstep
  cases a with
  | call operation =>
      rw [act_call haccount.signedIn] at h
      obtain ⟨rfl, rfl⟩ := Prod.mk.inj (Option.some.inj h)
      exact hdistinct
  | execute i ok => exact distinctListings_execute haccount hdistinct honce.1 h
  | delete uid id =>
      obtain ⟨-, -, rfl⟩ := act_delete h
      exact hdistinct
  | deliver j =>
      obtain ⟨reply, ready, hpick, hreact⟩ := act_deliver h
      obtain ⟨-, -, hready, -⟩ := react_frame reply hreact
      intro uid documents hmem
      rw [hready] at hmem
      exact hdistinct uid documents (hmem.imp (mem_of_mem_pick hpick) (mem_of_mem_pick hpick))

theorem nodup_concat {l : List String} {x : String} (h : l.Nodup) :
    (l ++ [x]).Nodup ↔ x ∉ l := by
  rw [← List.concat_eq_append, List.nodup_concat]
  exact and_iff_left h

/-- The one answer that can repeat a saved url is that of a successful save. -/
theorem savedUrls_deliver {j : Nat} {answers : List (κ × Bool)} (hdistinct : DistinctListings s)
    (honce : s.app.news.savedUrls.Nodup) (h : s.act (.deliver j) = some (s', answers)) :
    s'.app.news.savedUrls.Nodup ↔ ∀ picked ∈ pick s.ready j, match picked.1 with
      | .added _ article _ (some _) => article.key ∉ s.app.news.savedUrls
      | _ => True := by
  obtain ⟨reply, ready, hpick, hreact⟩ := act_deliver h
  have hmem : reply ∈ s.ready := mem_of_pick hpick
  rw [hpick]
  simp only [Option.mem_some_iff, forall_eq']
  cases reply with
  | added uid article completion document =>
      cases document with
      | none =>
          rw [react_added_failed] at hreact
          obtain ⟨rfl, -⟩ := Prod.mk.inj (Option.some.inj hreact)
          exact iff_of_true honce trivial
      | some document =>
          rw [react_added] at hreact
          obtain ⟨rfl, -⟩ := Prod.mk.inj (Option.some.inj hreact)
          exact nodup_concat honce
  | matched uid url completion documents =>
      refine iff_of_true ?_ trivial
      cases documents with
      | none =>
          rw [react_matched_failed] at hreact
          obtain ⟨rfl, -⟩ := Prod.mk.inj (Option.some.inj hreact)
          exact honce
      | some documents =>
          rw [react_matched] at hreact
          obtain ⟨rfl, -⟩ := Prod.mk.inj (Option.some.inj hreact)
          exact honce.filter _
  | ordered uid documents =>
      refine iff_of_true ?_ trivial
      cases documents with
      | none =>
          rw [react_ordered_failed] at hreact
          obtain ⟨rfl, -⟩ := Prod.mk.inj (Option.some.inj hreact)
          exact honce
      | some documents =>
          rw [react_ordered] at hreact
          obtain ⟨rfl, -⟩ := Prod.mk.inj (Option.some.inj hreact)
          exact hdistinct uid documents (Or.inl hmem)
  | listed uid documents =>
      refine iff_of_true ?_ trivial
      cases documents with
      | none =>
          rw [react_listed_failed] at hreact
          obtain ⟨rfl, -⟩ := Prod.mk.inj (Option.some.inj hreact)
          exact honce
      | some documents =>
          rw [react_listed] at hreact
          obtain ⟨rfl, -⟩ := Prod.mk.inj (Option.some.inj hreact)
          exact hdistinct uid documents (Or.inr hmem)

theorem urls_execute {i : Nat} {ok : Bool} {answers : List (κ × Bool)}
    (haccount : OneAccount user s) (honce : (s.urls user.uid).Nodup)
    (h : s.act (.execute i ok) = some (s', answers)) :
    (s'.urls user.uid).Nodup ↔ FirstSave user.uid s (.execute i ok) := by
  obtain ⟨request, waiting, hpick, rfl, -⟩ := act_execute h
  have huid : requestUid request = user.uid := (haccount.requests request (mem_of_pick hpick)).2
  cases ok with
  | true =>
      simp only [FirstSave, hpick, Option.mem_some_iff, forall_eq']
      cases request with
      | addDocument uid article completion =>
          obtain rfl : uid = user.uid := huid
          have hurls : (({ s with waiting := waiting } : State κ).executed
              (.addDocument user.uid article completion) true).urls user.uid =
                s.urls user.uid ++ [article.key] := urls_add user.uid article
          rw [hurls]
          exact nodup_concat honce
      | whereUrl uid url completion => exact iff_of_true honce trivial
      | orderedBySavedAt uid => exact iff_of_true honce trivial
      | getDocuments uid => exact iff_of_true honce trivial
      | delete uid id => exact iff_of_true honce trivial
  | false =>
      refine iff_of_true ?_ trivial
      cases request <;> exact honce

theorem atMostOnce_step {a : Action κ} (haccount : OneAccount user s)
    (hdistinct : DistinctListings s) (honce : AtMostOnce user.uid s)
    (hstep : (machine κ).step s a = some s') :
    AtMostOnce user.uid s' ↔ FirstSave user.uid s a := by
  obtain ⟨answers, h⟩ := machine_step_eq_some.mp hstep
  cases a with
  | call operation =>
      rw [act_call haccount.signedIn] at h
      obtain ⟨rfl, rfl⟩ := Prod.mk.inj (Option.some.inj h)
      exact iff_of_true honce trivial
  | execute i ok =>
      have happ : s'.app = s.app := by
        obtain ⟨request, waiting, -, rfl, -⟩ := act_execute h
        exact executed_app request ok
      rw [AtMostOnce, happ, urls_execute haccount honce.1 h]
      exact and_iff_left honce.2
  | delete uid id =>
      obtain ⟨-, -, rfl⟩ := act_delete h
      exact iff_of_true ⟨honce.1.sublist (urls_delete user.uid uid id), honce.2⟩ trivial
  | deliver j =>
      have hserver : s'.server = s.server := by
        obtain ⟨reply, ready, hpick, hreact⟩ := act_deliver h
        exact (react_frame reply hreact).1
      rw [AtMostOnce, State.urls, hserver, savedUrls_deliver hdistinct honce.2 h]
      exact and_iff_right honce.1

end Steps

/-! ## Saves one at a time -/

def saving : SavedRequest κ → Option String
  | .addDocument _ article _ => some article.key
  | _ => none

def Reply.saving : Reply κ → Option String
  | .added _ article _ (some _) => some article.key
  | _ => none

def State.savingUrls (s : State κ) : List String :=
  s.waiting.filterMap saving ++ s.ready.filterMap Reply.saving

def isFetch : SavedRequest κ → Bool
  | .orderedBySavedAt _ | .getDocuments _ => true
  | _ => false

def Reply.isFetch : Reply κ → Bool
  | .ordered .. | .listed .. => true
  | _ => false

def State.NoFetch (s : State κ) : Prop :=
  (∀ request ∈ s.waiting, isFetch request = false) ∧ ∀ reply ∈ s.ready, reply.isFetch = false

instance (s : State κ) : Decidable s.NoFetch :=
  inferInstanceAs (Decidable ((∀ _ ∈ _, _) ∧ ∀ _ ∈ _, _))

/-- A save is only asked for an article that is not saved and not being saved,
and saves and fetches wait for each other. -/
def Patient (uid : Uid) (s : State κ) : Action κ → Prop
  | .call (.saveArticle article _) =>
      article.key ∉ s.app.news.savedUrls ∧ article.key ∉ s.urls uid ∧
        article.key ∉ s.savingUrls ∧ s.NoFetch
  | .call .getSavedNews | .call .updateSavedUrls => s.savingUrls = []
  | _ => True

instance (uid : Uid) (s : State κ) : (a : Action κ) → Decidable (Patient uid s a)
  | .call (.saveArticle _ _) => inferInstanceAs (Decidable (_ ∧ _ ∧ _ ∧ _))
  | .call .getSavedNews | .call .updateSavedUrls => inferInstanceAs (Decidable (_ = _))
  | .call (.unsaveArticle _ _) | .execute _ _ | .delete _ _ | .deliver _ =>
      inferInstanceAs (Decidable True)

structure SavesApart (user : User) (s : State κ) : Prop where
  once : AtMostOnce user.uid s
  distinct : s.savingUrls.Nodup
  unsaved : ∀ url ∈ s.savingUrls, url ∉ s.app.news.savedUrls
  unadded : ∀ request ∈ s.waiting, ∀ url ∈ saving request, url ∉ s.urls user.uid
  apart : s.savingUrls = [] ∨ s.NoFetch

section Steps

variable {user : User} {s s' : State κ}

theorem firstSave_of_savesApart (h : SavesApart user s) (a : Action κ) :
    FirstSave user.uid s a := by
  cases a with
  | call operation => trivial
  | execute i ok =>
      cases ok with
      | false => trivial
      | true =>
          rintro ⟨request, waiting⟩ hpick
          cases request with
          | addDocument uid article completion =>
              exact h.unadded _ (mem_of_pick hpick) article.key rfl
          | _ => trivial
  | delete uid id => trivial
  | deliver j =>
      rintro ⟨reply, ready⟩ hpick
      rcases reply with ⟨uid, article, completion, _ | document⟩ | _ | _ | _
      · trivial
      · refine h.unsaved article.key ?_
        exact List.mem_append_right _ (List.mem_filterMap.mpr ⟨_, mem_of_pick hpick, rfl⟩)
      all_goals trivial

theorem SavesApart.settle (hinv : SavesApart user s) (honce : AtMostOnce user.uid s')
    (hsaving : s'.savingUrls.Subperm s.savingUrls)
    (hunsaved : ∀ url ∈ s'.savingUrls, url ∉ s'.app.news.savedUrls)
    (hunadded : ∀ request ∈ s'.waiting, ∀ url ∈ saving request, url ∉ s'.urls user.uid)
    (hfetch : s.NoFetch → s'.NoFetch) : SavesApart user s' := by
  refine ⟨honce, ?_, hunsaved, hunadded, ?_⟩
  · obtain ⟨l, hperm, hsub⟩ := hsaving
    exact hperm.nodup_iff.mp (hinv.distinct.sublist hsub)
  · rcases hinv.apart with hnil | hnone
    · rw [hnil] at hsaving
      exact Or.inl (List.subperm_nil.mp hsaving)
    · exact Or.inr (hfetch hnone)

theorem SavesApart.no_saving {j : Nat} {reply : Reply κ} {ready : List (Reply κ)}
    (hinv : SavesApart user s) (hpick : pick s.ready j = some (reply, ready))
    (hreply : reply.isFetch = true) (hsaving : s'.savingUrls.Subperm s.savingUrls)
    {url : String} : url ∉ s'.savingUrls := by
  rcases hinv.apart with hnil | hnone
  · rw [hnil] at hsaving
    rw [List.subperm_nil.mp hsaving]
    exact List.not_mem_nil
  · have hfalse := hnone.2 reply (mem_of_pick hpick)
    rw [hreply] at hfalse
    cases hfalse

theorem savesApart_ask {request : SavedRequest κ} (hinv : SavesApart user s)
    (hsaving : saving request = none) (hfetch : isFetch request = true → s.savingUrls = []) :
    SavesApart user { s with waiting := s.waiting ++ [request] } := by
  have hurls : ({ s with waiting := s.waiting ++ [request] } : State κ).savingUrls =
      s.savingUrls := by
    simp [State.savingUrls, hsaving]
  have hmem : ∀ r ∈ s.waiting ++ [request], r ∈ s.waiting ∨ r = request := by
    simp
  refine ⟨hinv.once, ?_, ?_, ?_, ?_⟩
  · rw [hurls]
    exact hinv.distinct
  · rw [hurls]
    exact hinv.unsaved
  · intro r hr url hurl
    rcases hmem r hr with hr | rfl
    · exact hinv.unadded r hr url hurl
    · rw [hsaving] at hurl
      cases hurl
  · rw [hurls]
    cases hrequest : isFetch request with
    | true => exact Or.inl (hfetch hrequest)
    | false =>
        refine hinv.apart.imp_right fun hnone => ⟨fun r hr => ?_, hnone.2⟩
        rcases hmem r hr with hr | rfl
        · exact hnone.1 r hr
        · exact hrequest

theorem savesApart_call {operation : Operation κ} {answers : List (κ × Bool)}
    (huser : s.app.currentUser = some user) (hinv : SavesApart user s)
    (hpatient : Patient user.uid s (.call operation))
    (h : s.act (.call operation) = some (s', answers)) : SavesApart user s' := by
  rw [act_call huser] at h
  obtain ⟨rfl, rfl⟩ := Prod.mk.inj (Option.some.inj h)
  cases operation with
  | saveArticle article completion =>
      obtain ⟨hsaved, hadded, hsaving, hfetch⟩ := hpatient
      have hperm : (({ s with waiting := s.waiting ++
          [.addDocument user.uid article completion] } : State κ).savingUrls).Perm
            (article.key :: s.savingUrls) := by
        simp only [State.savingUrls, List.filterMap_append]
        rw [List.append_assoc]
        exact List.perm_middle
      refine ⟨hinv.once, ?_, ?_, ?_, Or.inr ⟨?_, hfetch.2⟩⟩
      · rw [hperm.nodup_iff, List.nodup_cons]
        exact ⟨hsaving, hinv.distinct⟩
      · intro url hurl
        rcases List.mem_cons.mp (hperm.mem_iff.mp hurl) with rfl | hurl
        · exact hsaved
        · exact hinv.unsaved url hurl
      · intro request hr url hurl
        rcases List.mem_append.mp hr with hr | hr
        · exact hinv.unadded request hr url hurl
        · rw [List.mem_singleton.mp hr] at hurl
          obtain rfl := Option.some.inj hurl
          exact hadded
      · intro request hr
        rcases List.mem_append.mp hr with hr | hr
        · exact hfetch.1 request hr
        · rw [List.mem_singleton.mp hr]
          rfl
  | unsaveArticle url completion => exact savesApart_ask hinv rfl (by simp [isFetch])
  | getSavedNews => exact savesApart_ask hinv rfl fun _ => hpatient
  | updateSavedUrls => exact savesApart_ask hinv rfl fun _ => hpatient

theorem savingUrls_pick {i : Nat} {request : SavedRequest κ} {waiting : List (SavedRequest κ)}
    (hpick : pick s.waiting i = some (request, waiting)) :
    s.savingUrls.Perm
      ((saving request).toList ++ ({ s with waiting := waiting } : State κ).savingUrls) := by
  have hperm := (pick_perm hpick).filterMap saving
  have hcons : (request :: waiting).filterMap saving =
      (saving request).toList ++ waiting.filterMap saving := by
    cases h : saving request <;> simp [h]
  rw [hcons] at hperm
  rw [State.savingUrls, State.savingUrls, ← List.append_assoc]
  exact hperm.append_right _

theorem savingUrls_pick_ready {j : Nat} {reply : Reply κ} {ready : List (Reply κ)}
    (hpick : pick s.ready j = some (reply, ready)) :
    s.savingUrls.Perm
      (reply.saving.toList ++ ({ s with ready := ready } : State κ).savingUrls) := by
  have hperm := (pick_perm hpick).filterMap Reply.saving
  have hcons : (reply :: ready).filterMap Reply.saving =
      reply.saving.toList ++ ready.filterMap Reply.saving := by
    cases h : reply.saving <;> simp [h]
  rw [hcons] at hperm
  refine (hperm.append_left _).trans ?_
  rw [← List.append_assoc, State.savingUrls, ← List.append_assoc]
  exact List.perm_append_comm.append_right _

/-- A save that the server executes stays in flight, one that it refuses does not. -/
theorem savingUrls_execute {i : Nat} {request : SavedRequest κ} {waiting : List (SavedRequest κ)}
    (hpick : pick s.waiting i = some (request, waiting)) (hdelete : isDelete request = false)
    (ok : Bool) :
    (({ s with waiting := waiting } : State κ).executed request ok).savingUrls.Subperm
      s.savingUrls := by
  have hperm := savingUrls_pick hpick
  have hgone : ∀ reply : Reply κ, reply.saving = none → ∀ t : State κ, t.waiting = waiting →
      t.ready = s.ready ++ [reply] → t.savingUrls.Subperm s.savingUrls := by
    intro reply hnone t hwaiting hready
    have ht : t.savingUrls = ({ s with waiting := waiting } : State κ).savingUrls := by
      simp [State.savingUrls, hwaiting, hready, hnone]
    rw [ht]
    exact (List.sublist_append_right _ _).subperm.trans hperm.symm.subperm
  cases request with
  | addDocument uid article completion =>
      cases ok with
      | false => exact hgone _ rfl _ rfl rfl
      | true =>
          refine List.Perm.subperm (List.Perm.trans ?_ hperm.symm)
          simp only [State.executed, if_true, State.savingUrls, List.filterMap_append]
          rw [← List.append_assoc]
          exact List.perm_append_comm
  | whereUrl uid url completion => exact hgone _ rfl _ rfl rfl
  | orderedBySavedAt uid => exact hgone _ rfl _ rfl rfl
  | getDocuments uid => exact hgone _ rfl _ rfl rfl
  | delete uid id => cases hdelete

theorem noFetch_execute {i : Nat} {ok : Bool} {answers : List (κ × Bool)} (hnone : s.NoFetch)
    (h : s.act (.execute i ok) = some (s', answers)) : s'.NoFetch := by
  obtain ⟨request, waiting, hpick, rfl, -⟩ := act_execute h
  have hrequest : isFetch request = false := hnone.1 request (mem_of_pick hpick)
  have hrest : ∀ r ∈ waiting, isFetch r = false := fun r hr =>
    hnone.1 r (mem_of_mem_pick hpick hr)
  have hready : ∀ reply : Reply κ, reply.isFetch = false →
      ∀ r ∈ s.ready ++ [reply], r.isFetch = false := by
    intro reply hreply r hr
    rcases List.mem_append.mp hr with hr | hr
    · exact hnone.2 r hr
    · rw [List.mem_singleton.mp hr]
      exact hreply
  cases request with
  | addDocument uid article completion =>
      cases ok with
      | true => exact ⟨hrest, hready _ rfl⟩
      | false => exact ⟨hrest, hready _ rfl⟩
  | whereUrl uid url completion => exact ⟨hrest, hready _ rfl⟩
  | orderedBySavedAt uid => cases hrequest
  | getDocuments uid => cases hrequest
  | delete uid id => exact ⟨hrest, hnone.2⟩

theorem savesApart_execute {i : Nat} {ok : Bool} {answers : List (κ × Bool)}
    (haccount : OneAccount user s) (hinv : SavesApart user s) (honce : AtMostOnce user.uid s')
    (h : s.act (.execute i ok) = some (s', answers)) : SavesApart user s' := by
  have hfetch : s.NoFetch → s'.NoFetch := fun hnone => noFetch_execute hnone h
  obtain ⟨request, waiting, hpick, rfl, -⟩ := act_execute h
  obtain ⟨hdelete, huid⟩ := haccount.requests request (mem_of_pick hpick)
  obtain ⟨hwaiting, -⟩ :=
    executed_frame (s := { s with waiting := waiting }) request hdelete ok
  have hsaving := savingUrls_execute hpick hdelete ok
  have hrest : ∀ r ∈ waiting, ∀ url ∈ saving r, url ∉ s.urls user.uid := fun r hr =>
    hinv.unadded r (mem_of_mem_pick hpick hr)
  refine hinv.settle honce hsaving ?_ ?_ hfetch
  · rw [executed_app]
    exact fun url hurl => hinv.unsaved url (hsaving.subset hurl)
  · rw [hwaiting]
    intro r hr url hurl
    cases request with
    | addDocument uid article completion =>
        cases ok with
        | false => exact hrest r hr url hurl
        | true =>
            -- the other saves in flight are of other urls
            have hdistinct := (savingUrls_pick hpick).nodup_iff.mp hinv.distinct
            have hkey := (List.nodup_cons.mp hdistinct).1
            have hmem : url ∈ ({ s with waiting := waiting } : State κ).savingUrls :=
              List.mem_append_left _ (List.mem_filterMap.mpr ⟨r, hr, hurl⟩)
            have hne : url ≠ article.key := fun heq => hkey (heq ▸ hmem)
            obtain rfl : uid = user.uid := huid
            have hurls : (({ s with waiting := waiting } : State κ).executed
                (.addDocument user.uid article completion) true).urls user.uid =
                  s.urls user.uid ++ [article.key] := urls_add user.uid article
            rw [hurls, List.mem_append, List.mem_singleton]
            exact not_or.mpr ⟨hrest r hr url hurl, hne⟩
    | whereUrl uid url completion => exact hrest r hr _ hurl
    | orderedBySavedAt uid => exact hrest r hr _ hurl
    | getDocuments uid => exact hrest r hr _ hurl
    | delete uid id => cases hdelete

theorem savesApart_delete {uid : Uid} {id : DocumentId} {answers : List (κ × Bool)}
    (hinv : SavesApart user s) (honce : AtMostOnce user.uid s')
    (h : s.act (.delete uid id) = some (s', answers)) : SavesApart user s' := by
  obtain ⟨-, -, rfl⟩ := act_delete h
  refine hinv.settle honce (List.Subperm.refl _) hinv.unsaved ?_ fun hnone => hnone
  intro request hr url hurl hmem
  exact hinv.unadded request hr url hurl ((urls_delete user.uid uid id).subset hmem)

theorem savesApart_deliver {j : Nat} {answers : List (κ × Bool)} (hinv : SavesApart user s)
    (honce : AtMostOnce user.uid s') (h : s.act (.deliver j) = some (s', answers)) :
    SavesApart user s' := by
  obtain ⟨reply, ready, hpick, hreact⟩ := act_deliver h
  obtain ⟨hserver, hwaiting, hready, -⟩ := react_frame reply hreact
  have hperm := savingUrls_pick_ready hpick
  have hsame : s'.savingUrls = ({ s with ready := ready } : State κ).savingUrls := by
    rw [State.savingUrls, State.savingUrls, hwaiting, hready]
  have hsaving : s'.savingUrls.Subperm s.savingUrls := by
    rw [hsame]
    exact (List.sublist_append_right _ _).subperm.trans hperm.symm.subperm
  refine hinv.settle honce hsaving ?_ ?_ ?_
  · intro url hurl
    have hold : url ∉ s.app.news.savedUrls := hinv.unsaved url (hsaving.subset hurl)
    rcases reply with ⟨uid, article, completion, _ | document⟩ |
      ⟨uid, key, completion, _ | documents⟩ | ⟨uid, _ | documents⟩ | ⟨uid, _ | documents⟩
    · rw [react_added_failed] at hreact
      obtain ⟨rfl, -⟩ := Prod.mk.inj (Option.some.inj hreact)
      exact hold
    · -- the other saves in flight are of other urls
      rw [react_added] at hreact
      obtain ⟨rfl, -⟩ := Prod.mk.inj (Option.some.inj hreact)
      have hdistinct := hperm.nodup_iff.mp hinv.distinct
      have hkey := (List.nodup_cons.mp hdistinct).1
      have hne : url ≠ article.key := fun heq => hkey (heq ▸ hsame ▸ hurl)
      change url ∉ s.app.news.savedUrls ++ [article.key]
      rw [List.mem_append, List.mem_singleton]
      exact not_or.mpr ⟨hold, hne⟩
    · rw [react_matched_failed] at hreact
      obtain ⟨rfl, -⟩ := Prod.mk.inj (Option.some.inj hreact)
      exact hold
    · rw [react_matched] at hreact
      obtain ⟨rfl, -⟩ := Prod.mk.inj (Option.some.inj hreact)
      exact fun hmem => hold (List.mem_of_mem_filter hmem)
    · rw [react_ordered_failed] at hreact
      obtain ⟨rfl, -⟩ := Prod.mk.inj (Option.some.inj hreact)
      exact hold
    · exact absurd hurl (hinv.no_saving hpick rfl hsaving)
    · rw [react_listed_failed] at hreact
      obtain ⟨rfl, -⟩ := Prod.mk.inj (Option.some.inj hreact)
      exact hold
    · exact absurd hurl (hinv.no_saving hpick rfl hsaving)
  · rw [hwaiting, State.urls, hserver]
    exact hinv.unadded
  · intro hnone
    rw [State.NoFetch, hwaiting, hready]
    exact ⟨hnone.1, fun r hr => hnone.2 r (mem_of_mem_pick hpick hr)⟩

theorem savesApart_step {a : Action κ} (haccount : OneAccount user s)
    (hdistinct : DistinctListings s) (hinv : SavesApart user s) (hpatient : Patient user.uid s a)
    (hstep : (machine κ).step s a = some s') : SavesApart user s' := by
  have honce : AtMostOnce user.uid s' :=
    (atMostOnce_step haccount hdistinct hinv.once hstep).mpr (firstSave_of_savesApart hinv a)
  obtain ⟨answers, h⟩ := machine_step_eq_some.mp hstep
  cases a with
  | call operation => exact savesApart_call haccount.signedIn hinv hpatient h
  | execute i ok => exact savesApart_execute haccount hinv honce h
  | delete uid id => exact savesApart_delete hinv honce h
  | deliver j => exact savesApart_deliver hinv honce h

end Steps

/-! ## The marks on the screens -/

/-- Who waits for a save or an unsave: a table cell that is then marked or
unmarked, a card that toggles its mark, or a row of the saved articles. -/
inductive Caller where
  | cell (id : Nat) (saved : Bool)
  | card (id : Nat)
  | savedRow
deriving DecidableEq

/-- The store under the screens, with the `saved` flags of the cells (of the For
You, Search and Category tables) and of the cards. -/
structure Screens where
  store : State Caller
  cellSaved : Nat → Bool := fun _ => false
  cardSaved : Nat → Bool := fun _ => false

inductive Gesture where
  | cellForRowAt (id : Nat) (article : Article)
  | viewForCardAt (id : Nat) (article : Article)
  | leadingSwipe (id : Nat) (article : Article)
  | toggleSaved (id : Nat) (article : Article)
  | unsaveRow (article : Article)
  | refreshSaved
  | launch
  | execute (i : Nat) (ok : Bool)
  | delete (uid : Uid) (document : DocumentId)
  | deliver (j : Nat)

namespace Screens

/-- What a gesture asks of the store; rendering asks nothing. -/
def action (ui : Screens) : Gesture → Option (Action Caller)
  | .cellForRowAt .. | .viewForCardAt .. => none
  | .leadingSwipe id article => some (.call (
      if ui.cellSaved id then .unsaveArticle article.key (.cell id false)
      else .saveArticle article (.cell id true)))
  | .toggleSaved id article => some (.call (
      if ui.cardSaved id then .unsaveArticle article.key (.card id)
      else .saveArticle article (.card id)))
  | .unsaveRow article => some (.call (.unsaveArticle article.key .savedRow))
  | .refreshSaved => some (.call .getSavedNews)
  | .launch => some (.call .updateSavedUrls)
  | .execute i ok => some (.execute i ok)
  | .delete uid document => some (.delete uid document)
  | .deliver j => some (.deliver j)

/-- A rendered cell or card takes its mark from the saved urls; a new card of an
article without a url keeps the default. -/
def render (ui : Screens) : Gesture → Screens
  | .cellForRowAt id article =>
      let saved := ui.store.app.news.savedUrls.contains article.key
      { ui with cellSaved := Function.update ui.cellSaved id saved }
  | .viewForCardAt id article =>
      let saved := match article.url with
        | some url => ui.store.app.news.savedUrls.contains url
        | none => false
      { ui with cardSaved := Function.update ui.cardSaved id saved }
  | _ => ui

def complete (ui : Screens) : Caller × Bool → Screens
  | (.cell id saved, true) => { ui with cellSaved := Function.update ui.cellSaved id saved }
  | (.card id, true) =>
      { ui with cardSaved := Function.update ui.cardSaved id (!ui.cardSaved id) }
  | _ => ui

def act (ui : Screens) (gesture : Gesture) : Option Screens :=
  match ui.action gesture with
  | none => some (ui.render gesture)
  | some a => (ui.store.act a).map fun (store, answers) =>
      answers.foldl complete { ui with store := store }

end Screens

def screens : Machine Screens Gesture where
  step := Screens.act

namespace Screens

variable {ui ui' : Screens}

@[simp] theorem render_store (ui : Screens) (gesture : Gesture) :
    (ui.render gesture).store = ui.store := by
  cases gesture <;> rfl

@[simp] theorem complete_store (ui : Screens) (answer : Caller × Bool) :
    (ui.complete answer).store = ui.store := by
  rcases answer with ⟨_ | _ | _, _ | _⟩ <;> rfl

theorem foldl_complete_store (ui : Screens) (answers : List (Caller × Bool)) :
    (answers.foldl complete ui).store = ui.store := by
  induction answers generalizing ui with
  | nil => rfl
  | cons answer answers ih => rw [List.foldl_cons, ih, complete_store]

theorem step_store {gesture : Gesture} (h : screens.step ui gesture = some ui') :
    (ui.action gesture = none ∧ ui'.store = ui.store) ∨
      ∃ a, ui.action gesture = some a ∧ (machine Caller).step ui.store a = some ui'.store := by
  change ui.act gesture = some ui' at h
  unfold act at h
  split at h
  · next hnone =>
      obtain rfl := Option.some.inj h
      exact Or.inl ⟨hnone, render_store ui gesture⟩
  · next a haction =>
      obtain ⟨⟨store, answers⟩, hact, rfl⟩ := Option.map_eq_some_iff.mp h
      refine Or.inr ⟨a, haction, ?_⟩
      rw [foldl_complete_store]
      exact machine_step_eq_some.mpr ⟨answers, hact⟩

end Screens

/-- A guard on the store's steps, read on gestures. -/
def OnStore (G : State Caller → Action Caller → Prop) (ui : Screens) (gesture : Gesture) : Prop :=
  ∀ a ∈ ui.action gesture, G ui.store a

instance (G : State Caller → Action Caller → Prop) [∀ s a, Decidable (G s a)] (ui : Screens)
    (gesture : Gesture) : Decidable (OnStore G ui gesture) :=
  inferInstanceAs (Decidable (∀ _ ∈ _, _))

/-- **Uniqueness.** From an account whose documents have distinct urls and agree
with the saved urls, the screens keep the documents and the saved urls distinct
exactly as long as every successful add finds no document with its url and every
reported save finds its url not yet among the saved ones. It is enough that each
tap and swipe on an unmarked article waits until the article is neither saved nor
being saved, and that saves and fetches wait for each other. -/
theorem saved_atMostOnce {user : User} {ui : Screens} {gestures : List Gesture}
    (hidle : ui.store.Idle) (huser : ui.store.app.currentUser = some user)
    (hdistinct : (ui.store.urls user.uid).Nodup)
    (hagrees : ui.store.app.news.savedUrls.Perm (ui.store.urls user.uid)) :
    (screens.Always (fun ui => AtMostOnce user.uid ui.store) ui gestures ↔
      screens.Meets (OnStore (FirstSave user.uid)) ui gestures) ∧
    (screens.Meets (OnStore (Patient user.uid)) ui gestures →
      screens.Always (fun ui => AtMostOnce user.uid ui.store) ui gestures) := by
  have hready : ui.store.ready = [] := hidle.2.1
  have hwaiting : ui.store.waiting = [] := hidle.1
  have haccount : OneAccount user ui.store := oneAccount_of_idle hidle huser
  have hlistings : DistinctListings ui.store := by simp [DistinctListings, hready]
  have honce : AtMostOnce user.uid ui.store := ⟨hdistinct, hagrees.nodup_iff.mpr hdistinct⟩
  have hsupport : ∀ {ui gesture ui'},
      OneAccount user ui.store ∧ DistinctListings ui.store → AtMostOnce user.uid ui.store →
      screens.step ui gesture = some ui' →
      OneAccount user ui'.store ∧ DistinctListings ui'.store := by
    rintro ui gesture ui' ⟨haccount, hlistings⟩ honce h
    rcases Screens.step_store h with ⟨-, hstore⟩ | ⟨a, -, hstep⟩
    · rw [hstore]
      exact ⟨haccount, hlistings⟩
    · exact ⟨oneAccount_step haccount hstep,
        distinctListings_step haccount hlistings honce hstep⟩
  constructor
  · refine screens.always_iff_meets
      (I := fun ui => OneAccount user ui.store ∧ DistinctListings ui.store)
      hsupport ?_ ⟨haccount, hlistings⟩ honce
    rintro ui gesture ui' ⟨haccount, hlistings⟩ honce h
    rcases Screens.step_store h with ⟨hnone, hstore⟩ | ⟨a, haction, hstep⟩
    · rw [hstore]
      exact iff_of_true honce (by simp [OnStore, hnone])
    · rw [atMostOnce_step haccount hlistings honce hstep]
      simp [OnStore, haction]
  · intro hpatient
    have hnone : ui.store.savingUrls = [] := by simp [State.savingUrls, hwaiting, hready]
    have hinv : SavesApart user ui.store :=
      ⟨honce, by simp [hnone], by simp [hnone], by simp [hwaiting], Or.inl hnone⟩
    refine screens.always_of_meets
      (I := fun ui => (OneAccount user ui.store ∧ DistinctListings ui.store) ∧
        SavesApart user ui.store)
      ?_ (fun h => h.2.once) ⟨⟨haccount, hlistings⟩, hinv⟩ hpatient
    rintro ui gesture ui' ⟨⟨haccount, hlistings⟩, hinv⟩ hpatient h
    refine ⟨hsupport ⟨haccount, hlistings⟩ hinv.once h, ?_⟩
    rcases Screens.step_store h with ⟨-, hstore⟩ | ⟨a, haction, hstep⟩
    · rw [hstore]
      exact hinv
    · exact savesApart_step haccount hlistings hinv (hpatient a haction) hstep

/-- The reader saves the story from its card, unsaves it and saves it again, each
time after the last request has been settled. -/
def patientTaps : List Gesture :=
  [.viewForCardAt 0 story, .toggleSaved 0 story, .execute 0 true, .deliver 0,
    .toggleSaved 0 story, .execute 0 true, .deliver 0, .delete "reader" 0,
    .toggleSaved 0 story, .execute 0 true, .deliver 0]

theorem saved_atMostOnce_patientTaps :
    screens.Always (fun ui => AtMostOnce reader.uid ui.store) { store := emptyStart }
      patientTaps := by
  have hpatient : screens.Meets (OnStore (Patient reader.uid)) { store := emptyStart }
      patientTaps := by decide +kernel
  exact (@saved_atMostOnce reader { store := emptyStart } patientTaps (by decide) rfl
    List.nodup_nil (List.Perm.refl _)).2 hpatient

/-- The second tap comes before the first save is reported, while the card is
still unmarked. -/
def doubleTap : List Gesture :=
  [.viewForCardAt 0 story, .toggleSaved 0 story, .toggleSaved 0 story, .execute 0 true,
    .execute 0 true, .deliver 0, .deliver 0]

theorem saved_twice :
    ¬ ∀ (user : User) (ui : Screens) (gestures : List Gesture), ui.store.Idle →
      ui.store.app.currentUser = some user → (ui.store.urls user.uid).Nodup →
      ui.store.app.news.savedUrls.Perm (ui.store.urls user.uid) →
      screens.Always (fun ui => AtMostOnce user.uid ui.store) ui gestures := by
  intro h
  have hends : (screens.run { store := emptyStart } doubleTap).isSome := by decide +kernel
  have htwice : ∀ ui ∈ screens.run { store := emptyStart } doubleTap,
      ui.store.urls reader.uid = [story.key, story.key] := by decide +kernel
  have honce := h reader { store := emptyStart } doubleTap (by decide) rfl List.nodup_nil
    (List.Perm.refl _)
  refine screens.not_always_of_run hends (fun ui hui hnodup => ?_) honce
  rw [AtMostOnce, htwice ui hui] at hnodup
  exact absurd hnodup.1 (by decide)

end NewsFlash.SavedStore
