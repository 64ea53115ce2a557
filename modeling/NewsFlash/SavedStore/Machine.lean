import Mathlib.Data.List.Sort
import NewsFlash.Library.InFlight
import NewsFlash.Library.Machine
import NewsFlash.Models.Networking

/-!
# Saved articles: the client, the server and the requests between them

The client issues requests to `users/<uid>/saved`. The server executes a waiting
request at some later moment, which makes an answer ready, and the closure of a
ready answer runs at some moment after that. Nothing orders these moments for
different requests. A delete is fire-and-forget: the server executes it at some
moment and nobody is told.
-/

namespace NewsFlash.SavedStore

open NewsFlash.Library NewsFlash.Models NewsFlash.Models.Networking

/-! ## The server -/

/-- The saved collections of all accounts. A document gets a fresh identifier,
and its time stamp is later than all earlier ones. -/
structure Server where
  saved : Uid → List SavedDocument
  nextId : DocumentId
  fresh : ∀ uid, ∀ document ∈ saved uid, document.id < nextId
  unique : ∀ uid, ((saved uid).map SavedDocument.id).Nodup

namespace Server

def empty : Server where
  saved := fun _ => []
  nextId := 0
  fresh := by simp
  unique := by simp

def newDocument (server : Server) (data : SavedData) : SavedDocument :=
  ⟨server.nextId, data, server.nextId⟩

def add (server : Server) (uid : Uid) (data : SavedData) : Server where
  saved := fun u =>
    if u = uid then server.saved u ++ [server.newDocument data] else server.saved u
  nextId := server.nextId + 1
  fresh := by
    intro u document hd
    have hold : ∀ d ∈ server.saved u, d.id < server.nextId + 1 := fun d hd =>
      Nat.lt_succ_of_lt (server.fresh u d hd)
    split at hd
    · rcases List.mem_append.mp hd with hd | hd
      · exact hold document hd
      · rw [List.mem_singleton.mp hd]
        exact Nat.lt_succ_self _
    · exact hold document hd
  unique := by
    intro u
    split
    · rw [List.map_append, List.nodup_append]
      refine ⟨server.unique u, List.nodup_singleton _, ?_⟩
      intro id hid id' hid'
      obtain ⟨d, hd, rfl⟩ := List.mem_map.mp hid
      have hlt := server.fresh u d hd
      rw [List.mem_singleton.mp hid']
      exact Nat.ne_of_lt hlt
    · exact server.unique u

def delete (server : Server) (uid : Uid) (id : DocumentId) : Server where
  saved := fun u =>
    if u = uid then (server.saved u).filter fun document => document.id != id
    else server.saved u
  nextId := server.nextId
  fresh := by
    intro u document hd
    split at hd
    · exact server.fresh u document (List.mem_of_mem_filter hd)
    · exact server.fresh u document hd
  unique := by
    intro u
    split
    · exact (server.unique u).sublist (List.filter_sublist.map _)
    · exact server.unique u

theorem saved_add (server : Server) (uid : Uid) (data : SavedData) :
    (server.add uid data).saved uid = server.saved uid ++ [server.newDocument data] :=
  if_pos rfl

theorem saved_add_of_ne (server : Server) {uid u : Uid} (h : u ≠ uid) (data : SavedData) :
    (server.add uid data).saved u = server.saved u := if_neg h

theorem saved_delete (server : Server) (uid : Uid) (id : DocumentId) :
    (server.delete uid id).saved uid =
      (server.saved uid).filter fun document => document.id != id := if_pos rfl

theorem saved_delete_of_ne (server : Server) {uid u : Uid} (h : u ≠ uid) (id : DocumentId) :
    (server.delete uid id).saved u = server.saved u := if_neg h

theorem mem_saved_delete {server : Server} {uid u : Uid} {id : DocumentId}
    {document : SavedDocument} (h : document ∈ (server.delete uid id).saved u) :
    document ∈ server.saved u := by
  by_cases hu : u = uid
  · subst hu
    rw [saved_delete] at h
    exact List.mem_of_mem_filter h
  · rwa [saved_delete_of_ne server hu] at h

theorem eq_of_id_eq {server : Server} {uid : Uid} {d d' : SavedDocument}
    (hd : d ∈ server.saved uid) (hd' : d' ∈ server.saved uid) (h : d.id = d'.id) : d = d' :=
  List.inj_on_of_nodup_map (server.unique uid) hd hd' h

end Server

/-- `order(by: "savedAt", descending: true)` -/
def orderedBySavedAt (documents : List SavedDocument) : List SavedDocument :=
  documents.insertionSort fun d d' => d'.savedAt ≤ d.savedAt

/-! ## Answers -/

/-- An executed request whose closure has yet to run; the result is `none` where
the server reported an error. -/
inductive Reply (κ : Type) where
  | added (uid : Uid) (article : Article) (completion : κ) (document : Option SavedDocument)
  | matched (uid : Uid) (url : String) (completion : κ) (documents : Option (List SavedDocument))
  | ordered (uid : Uid) (documents : Option (List SavedDocument))
  | listed (uid : Uid) (documents : Option (List SavedDocument))
deriving DecidableEq

/-- The completion that `SavedNewsViewController` gives to `getSavedNews`. -/
def SavedNewsViewController.onSavedNews {ρ α : Type} (data : Option (List Article)) :
    Callback App ρ α Unit :=
  App.modifyNews fun news => { news with savedNews := data.getD [] }

namespace Reply

variable {κ : Type}

def uid : Reply κ → Uid
  | added uid .. | matched uid .. | ordered uid _ | listed uid _ => uid

def closure [Canonical] : Reply κ → Callback App (SavedRequest κ) (κ × Bool) Unit
  | added _ article completion document =>
      saveArticle.onAdded article (fun ok => Callback.complete (completion, ok)) document.isNone
  | matched uid url completion documents =>
      unsaveArticle.onDocuments uid url (fun ok => Callback.complete (completion, ok))
        (documents.map fun ds => ds.map SavedDocument.id)
  | ordered _ documents =>
      getSavedNews.onDocuments SavedNewsViewController.onSavedNews
        (documents.map fun ds => (ds.map SavedDocument.data).map SavedData.fields)
  | listed _ documents =>
      updateSavedUrls.onDocuments
        (documents.map fun ds => (ds.map SavedDocument.data).map SavedData.fields)

/-- The document of a save whose success the client has yet to learn of. -/
def landed : Reply κ → Option SavedDocument
  | added _ _ _ document => document
  | _ => none

end Reply

def requestUid {κ : Type} : SavedRequest κ → Uid
  | .addDocument uid .. | .whereUrl uid .. | .orderedBySavedAt uid | .getDocuments uid
  | .delete uid _ => uid

def isDelete {κ : Type} : SavedRequest κ → Bool
  | .delete .. => true
  | _ => false

def asDelete {κ : Type} : SavedRequest κ → Option (Uid × DocumentId)
  | .delete uid id => some (uid, id)
  | _ => none

/-! ## The machine -/

inductive Operation (κ : Type) where
  | saveArticle (article : Article) (completion : κ)
  | unsaveArticle (url : String) (completion : κ)
  | getSavedNews
  | updateSavedUrls
deriving DecidableEq

def Operation.body {κ : Type} : Operation κ → Callback App (SavedRequest κ) (κ × Bool) Unit
  | saveArticle article completion => Networking.saveArticle article completion
  | unsaveArticle url completion => Networking.unsaveArticle url completion
  | getSavedNews => Networking.getSavedNews
  | updateSavedUrls => Networking.updateSavedUrls

structure State (κ : Type) where
  app : App
  server : Server
  waiting : List (SavedRequest κ) := []
  ready : List (Reply κ) := []
  deletes : List (Uid × DocumentId) := []

inductive Action (κ : Type) where
  | call (operation : Operation κ)
  | execute (i : Nat) (ok : Bool)
  | delete (uid : Uid) (document : DocumentId)
  | deliver (j : Nat)
deriving DecidableEq

namespace State

variable {κ : Type}

/-- Run callback code on the client; a trap ends the process, so it has no
successor. -/
def react (s : State κ) (code : Callback App (SavedRequest κ) (κ × Bool) Unit) :
    Option (State κ × List (κ × Bool)) :=
  match code.exec s.app with
  | (none, _) => none
  | (some (), t) =>
      some ({ s with
        app := t.store
        waiting := s.waiting ++ t.issued.filter (fun request => !isDelete request)
        deletes := s.deletes ++ t.issued.filterMap asDelete }, t.completed)

/-- The server executes a request, or reports an error without any effect. -/
def executed (s : State κ) (request : SavedRequest κ) (ok : Bool) : State κ :=
  match request with
  | .addDocument uid article completion =>
      if ok then
        let data := saveArticle.data article
        { s with
          server := s.server.add uid data
          ready := s.ready ++ [.added uid article completion (some (s.server.newDocument data))] }
      else { s with ready := s.ready ++ [.added uid article completion none] }
  | .whereUrl uid url completion =>
      { s with ready := s.ready ++ [.matched uid url completion (if ok then
          some ((s.server.saved uid).filter fun document => document.data.url == url)
        else none)] }
  | .orderedBySavedAt uid =>
      { s with ready := s.ready ++ [.ordered uid (if ok then
          some (orderedBySavedAt (s.server.saved uid)) else none)] }
  | .getDocuments uid =>
      { s with ready := s.ready ++ [.listed uid (if ok then
          some (s.server.saved uid) else none)] }
  -- Deletes are kept apart in `deletes`.
  | .delete .. => s

def act [Canonical] (s : State κ) : Action κ → Option (State κ × List (κ × Bool))
  | .call operation => s.react operation.body
  | .execute i ok => (pick s.waiting i).map fun (request, waiting) =>
      ({ s with waiting := waiting }.executed request ok, [])
  | .delete uid id =>
      if (uid, id) ∈ s.deletes then
        some ({ s with
          server := s.server.delete uid id
          deletes := s.deletes.erase (uid, id) }, [])
      else none
  | .deliver j => (pick s.ready j).bind fun (reply, ready) =>
      { s with ready := ready }.react reply.closure

/-- No request and no delete is outstanding. -/
def Idle (s : State κ) : Prop := s.waiting = [] ∧ s.ready = [] ∧ s.deletes = []

instance [DecidableEq κ] (s : State κ) : Decidable s.Idle :=
  inferInstanceAs (Decidable (_ ∧ _ ∧ _))

end State

def machine [Canonical] (κ : Type) : Machine (State κ) (Action κ) where
  step s a := (s.act a).map Prod.fst

/-! ## A first session -/

def reader : User := ⟨"reader", some "reader@example.com"⟩

def story : Article :=
  ⟨some ⟨none, some "Wire"⟩, some "Story", none, some "https://example.com/story", none⟩

def report : Article :=
  ⟨some ⟨none, some "Wire"⟩, some "Report", none, some "https://example.com/report", none⟩

def emptyStart {κ : Type} : State κ where
  app := { currentUser := some reader }
  server := Server.empty

/-! ## What a step does -/

section Steps

variable {κ : Type} {s s' : State κ} {answers : List (κ × Bool)}

theorem filter_not_isDelete (uid : Uid) (ids : List DocumentId) :
    (ids.map (SavedRequest.delete (κ := κ) uid)).filter (fun request => !isDelete request) = [] := by
  simp [isDelete]

theorem filterMap_asDelete (uid : Uid) (ids : List DocumentId) :
    (ids.map (SavedRequest.delete (κ := κ) uid)).filterMap asDelete =
      ids.map fun id => (uid, id) := by
  induction ids with
  | nil => rfl
  | cons id ids ih => exact congrArg ((uid, id) :: ·) ih

theorem executed_app (request : SavedRequest κ) (ok : Bool) :
    (s.executed request ok).app = s.app := by
  cases request with
  | addDocument uid article completion => cases ok <;> rfl
  | whereUrl uid url completion => rfl
  | orderedBySavedAt uid => rfl
  | getDocuments uid => rfl
  | delete uid id => rfl

theorem executed_frame (request : SavedRequest κ) (hrequest : isDelete request = false) (ok : Bool) :
    (s.executed request ok).waiting = s.waiting ∧
      ∃ reply, (s.executed request ok).ready = s.ready ++ [reply] ∧
        reply.uid = requestUid request := by
  cases request with
  | addDocument uid article completion => cases ok <;> exact ⟨rfl, _, rfl, rfl⟩
  | whereUrl uid url completion => exact ⟨rfl, _, rfl, rfl⟩
  | orderedBySavedAt uid => exact ⟨rfl, _, rfl, rfl⟩
  | getDocuments uid => exact ⟨rfl, _, rfl, rfl⟩
  | delete uid id => cases hrequest

variable [Canonical]

theorem machine_step_eq_some {a : Action κ} :
    (machine κ).step s a = some s' ↔ ∃ answers, s.act a = some (s', answers) := by
  rw [machine, Option.map_eq_some_iff]
  constructor
  · rintro ⟨⟨_, answers⟩, h, rfl⟩
    exact ⟨answers, h⟩
  · rintro ⟨answers, h⟩
    exact ⟨(s', answers), h, rfl⟩

/-- What a call asks of the server; without a user, all calls but `getSavedNews`
trap. -/
def Operation.asks (operation : Operation κ) : Option User → Option (List (SavedRequest κ))
  | some user => some [match operation with
      | .saveArticle article completion => .addDocument user.uid article completion
      | .unsaveArticle url completion => .whereUrl user.uid url completion
      | .getSavedNews => .orderedBySavedAt user.uid
      | .updateSavedUrls => .getDocuments user.uid]
  | none => match operation with
      | .getSavedNews => some []
      | _ => none

theorem act_call_asks (operation : Operation κ) :
    s.act (.call operation) = (operation.asks s.app.currentUser).map fun asked =>
      ({ s with waiting := s.waiting ++ asked }, []) := by
  cases huser : s.app.currentUser <;> cases operation <;>
    simp [State.act, State.react, Operation.body, Operation.asks, saveArticle_apply,
      unsaveArticle_apply, getSavedNews_apply, updateSavedUrls_apply, huser, isDelete, asDelete]

theorem act_call {user : User} (huser : s.app.currentUser = some user)
    (operation : Operation κ) :
    s.act (.call operation) = some ({ s with waiting := s.waiting ++ [match operation with
      | .saveArticle article completion => .addDocument user.uid article completion
      | .unsaveArticle url completion => .whereUrl user.uid url completion
      | .getSavedNews => .orderedBySavedAt user.uid
      | .updateSavedUrls => .getDocuments user.uid] }, []) := by
  rw [act_call_asks, huser]
  rfl

theorem act_execute {i : Nat} {ok : Bool} (h : s.act (.execute i ok) = some (s', answers)) :
    ∃ request waiting, pick s.waiting i = some (request, waiting) ∧
      s' = { s with waiting := waiting }.executed request ok ∧ answers = [] := by
  rw [State.act, Option.map_eq_some_iff] at h
  obtain ⟨⟨request, waiting⟩, hpick, hs⟩ := h
  obtain ⟨rfl, rfl⟩ := Prod.mk.inj hs
  exact ⟨request, waiting, hpick, rfl, rfl⟩

theorem act_delete {uid : Uid} {id : DocumentId}
    (h : s.act (.delete uid id) = some (s', answers)) :
    (uid, id) ∈ s.deletes ∧ answers = [] ∧
      s' = { s with server := s.server.delete uid id, deletes := s.deletes.erase (uid, id) } := by
  rw [State.act] at h
  split at h
  · next hmem =>
      obtain ⟨rfl, rfl⟩ := Prod.mk.inj (Option.some.inj h)
      exact ⟨hmem, rfl, rfl⟩
  · cases h

theorem act_deliver {j : Nat} (h : s.act (.deliver j) = some (s', answers)) :
    ∃ reply ready, pick s.ready j = some (reply, ready) ∧
      { s with ready := ready }.react reply.closure = some (s', answers) := by
  rw [State.act, Option.bind_eq_some_iff] at h
  obtain ⟨⟨reply, ready⟩, hpick, hs⟩ := h
  exact ⟨reply, ready, hpick, hs⟩

@[simp] theorem react_added_failed (uid : Uid) (article : Article) (completion : κ) :
    s.react (Reply.added uid article completion none).closure =
      some (s, [(completion, false)]) := by
  simp [State.react, Reply.closure, saveArticle.onAdded]

@[simp] theorem react_added (uid : Uid) (article : Article) (completion : κ)
    (document : SavedDocument) :
    s.react (Reply.added uid article completion (some document)).closure =
      some ({ s with app := { s.app with news := { s.app.news with
        savedNews := article :: s.app.news.savedNews
        savedUrls := s.app.news.savedUrls ++ [article.key] } } }, [(completion, true)]) := by
  simp [State.react, Reply.closure, saveArticle.onAdded_saved]

@[simp] theorem react_matched_failed (uid : Uid) (url : String) (completion : κ) :
    s.react (Reply.matched uid url completion none).closure =
      some (s, [(completion, false)]) := by
  simp [State.react, Reply.closure, unsaveArticle.onDocuments]

@[simp] theorem react_matched (uid : Uid) (url : String) (completion : κ)
    (documents : List SavedDocument) :
    s.react (Reply.matched uid url completion (some documents)).closure =
      some ({ s with
        app := { s.app with news := { s.app.news with
          savedNews := s.app.news.savedNews.filter fun article =>
            article.url.all fun articleUrl => !equal articleUrl url
          savedUrls := s.app.news.savedUrls.filter fun savedUrl => !equal savedUrl url } }
        deletes := s.deletes ++ documents.map fun document => (uid, document.id) },
        [(completion, true)]) := by
  simp only [State.react, Reply.closure, Option.map_some, Callback.exec_apply,
    unsaveArticle.onDocuments_matched, Callback.complete_apply, List.nil_append,
    filter_not_isDelete, filterMap_asDelete, List.append_nil]
  simp only [List.map_map, Function.comp_def]

@[simp] theorem react_ordered_failed (uid : Uid) :
    s.react (Reply.ordered uid none).closure =
      some ({ s with app := { s.app with news := { s.app.news with savedNews := [] } } }, []) := by
  simp [State.react, Reply.closure, getSavedNews.onDocuments,
    SavedNewsViewController.onSavedNews, App.modifyNews]

@[simp] theorem react_ordered (uid : Uid) (documents : List SavedDocument) :
    s.react (Reply.ordered uid (some documents)).closure =
      some ({ s with app := { s.app with news := { s.app.news with
        savedNews := documents.map fun document => document.data.fields.article
        savedUrls := documents.map fun document => document.data.url } } }, []) := by
  simp only [State.react, Reply.closure, Option.map_some, Callback.exec_apply,
    getSavedNews.onDocuments_fetched]
  simp [SavedNewsViewController.onSavedNews, App.modifyNews]

@[simp] theorem react_listed_failed (uid : Uid) :
    s.react (Reply.listed uid none).closure = some (s, []) := by
  simp [State.react, Reply.closure, updateSavedUrls.onDocuments]

@[simp] theorem react_listed (uid : Uid) (documents : List SavedDocument) :
    s.react (Reply.listed uid (some documents)).closure =
      some ({ s with app := { s.app with news := { s.app.news with
        savedUrls := documents.map fun document => document.data.url } } }, []) := by
  simp only [State.react, Reply.closure, Option.map_some, Callback.exec_apply,
    updateSavedUrls.onDocuments_fetched]
  simp

theorem react_frame (reply : Reply κ) (h : s.react reply.closure = some (s', answers)) :
    s'.server = s.server ∧ s'.waiting = s.waiting ∧ s'.ready = s.ready ∧
      s'.app.currentUser = s.app.currentUser := by
  rcases reply with ⟨_, _, _, _ | _⟩ | ⟨_, _, _, _ | _⟩ | ⟨_, _ | _⟩ | ⟨_, _ | _⟩ <;>
    · simp only [react_added_failed, react_added, react_matched_failed, react_matched,
        react_ordered_failed, react_ordered, react_listed_failed, react_listed] at h
      obtain ⟨rfl, -⟩ := Prod.mk.inj (Option.some.inj h)
      exact ⟨rfl, rfl, rfl, rfl⟩

end Steps

/-! ## Runs of one account -/

/-- One account is signed in and everything in flight is its own. -/
structure OneAccount {κ : Type} (user : User) (s : State κ) : Prop where
  signedIn : s.app.currentUser = some user
  requests : ∀ request ∈ s.waiting, isDelete request = false ∧ requestUid request = user.uid
  replies : ∀ reply ∈ s.ready, reply.uid = user.uid

section OneAccount

variable {κ : Type} {user : User} {s s' : State κ}

theorem oneAccount_of_idle (hidle : s.Idle) (huser : s.app.currentUser = some user) :
    OneAccount user s := by
  obtain ⟨hwaiting, hready, -⟩ := hidle
  exact ⟨huser, by simp [hwaiting], by simp [hready]⟩

theorem oneAccount_step [Canonical] {a : Action κ} (h : OneAccount user s)
    (hstep : (machine κ).step s a = some s') : OneAccount user s' := by
  obtain ⟨answers, hact⟩ := machine_step_eq_some.mp hstep
  cases a with
  | call operation =>
      rw [act_call h.signedIn] at hact
      obtain ⟨rfl, rfl⟩ := Prod.mk.inj (Option.some.inj hact)
      refine ⟨h.signedIn, ?_, h.replies⟩
      intro request hr
      rcases List.mem_append.mp hr with hr | hr
      · exact h.requests request hr
      · rw [List.mem_singleton.mp hr]
        cases operation <;> exact ⟨rfl, rfl⟩
  | execute i ok =>
      obtain ⟨request, waiting, hpick, rfl, -⟩ := act_execute hact
      obtain ⟨hdelete, huid⟩ := h.requests request (mem_of_pick hpick)
      obtain ⟨hwaiting, reply, hready, hreply⟩ :=
        executed_frame (s := { s with waiting := waiting }) request hdelete ok
      refine ⟨?_, ?_, ?_⟩
      · rw [executed_app]
        exact h.signedIn
      · rw [hwaiting]
        exact fun r hr => h.requests r (mem_of_mem_pick hpick hr)
      · rw [hready]
        intro r hr
        rcases List.mem_append.mp hr with hr | hr
        · exact h.replies r hr
        · rw [List.mem_singleton.mp hr, hreply]
          exact huid
  | delete uid id =>
      obtain ⟨-, -, rfl⟩ := act_delete hact
      exact ⟨h.signedIn, h.requests, h.replies⟩
  | deliver j =>
      obtain ⟨reply, ready, hpick, hreact⟩ := act_deliver hact
      obtain ⟨-, hwaiting, hready, huser⟩ := react_frame reply hreact
      refine ⟨huser.trans h.signedIn, ?_, ?_⟩
      · rw [hwaiting]
        exact h.requests
      · rw [hready]
        exact fun r hr => h.replies r (mem_of_mem_pick hpick hr)

end OneAccount

end NewsFlash.SavedStore
