import NewsFlash.Models.Authentication
import NewsFlash.SavedStore.Machine

/-!
# The saved articles of one account after another

`News.shared` lives as long as the process; `signOut` clears the stored profile
and leaves the saved articles and urls, a login may replace the user without a
`signOut`, and closures of the last account's requests may still run. `Isolating`
says when none of this matters: then the saved articles are always those of the
account that is signed in, and another account sees nothing of what the first one
had saved.
-/

namespace NewsFlash.SavedStore

open NewsFlash.Library NewsFlash.Models NewsFlash.Models.Networking

variable {κ : Type}

/-! ## Sessions -/

def Reply.urls : Reply κ → List String
  | .added _ article _ (some _) => [article.key]
  | .ordered _ (some documents) | .listed _ (some documents) =>
      documents.map fun document => document.data.url
  | _ => []

def Reply.articles : Reply κ → List Article
  | .added _ article _ (some _) => [article]
  | .ordered _ (some documents) => documents.map fun document => document.data.fields.article
  | _ => []

/-- A store with a record of the urls and articles that were saved or fetched so
far, and of the account for which they were. -/
structure Session (κ : Type) where
  store : State κ
  urls : List (Uid × String) := []
  articles : List (Uid × Article) := []

inductive Event (κ : Type) where
  | act (a : Action κ)
  | signOut (ok : Bool)
  | signIn (user : User)
  | clearSavedNews

namespace Session

def news (s : Session κ) : News := s.store.app.news

def currentUser (s : Session κ) : Option User := s.store.app.currentUser

def withApp (s : Session κ) (app : App) : Session κ :=
  { s with store := { s.store with app := app } }

def record (s : Session κ) : Action κ → Session κ
  | .deliver j => match pick s.store.ready j with
      | some (reply, _) =>
          { s with
            urls := s.urls ++ reply.urls.map fun url => (reply.uid, url)
            articles := s.articles ++ reply.articles.map fun article => (reply.uid, article) }
      | none => s
  | _ => s

def step [Canonical] (s : Session κ) : Event κ → Option (Session κ)
  | .act a => (s.store.act a).map fun (store, _) => { s.record a with store := store }
  | .signOut ok =>
      let signOut : Callback App (SavedRequest κ) Bool Unit :=
        Authentication.signOut Callback.complete ok
      some (s.withApp (signOut.exec s.store.app).2.store)
  -- Also while somebody is signed in: a login that finds no document leaves its sheet up.
  | .signIn user => some (s.withApp { s.store.app with currentUser := some user })
  -- A memory warning, or the deinit of the saved screen.
  | .clearSavedNews =>
      some (s.withApp { s.store.app with news := { s.news with savedNews := [] } })

/-- The process has just started: nothing is stored or in flight. -/
def Launched (s : Session κ) : Prop :=
  s.store.Idle ∧ s.news.savedUrls = [] ∧ s.news.savedNews = []

/-- The saved urls and articles are those of the account now signed in. -/
def Owned (s : Session κ) : Prop :=
  match s.currentUser with
  | some user => (∀ url ∈ s.news.savedUrls, (user.uid, url) ∈ s.urls) ∧
      ∀ article ∈ s.news.savedNews, (user.uid, article) ∈ s.articles
  | none => s.news.savedUrls = [] ∧ s.news.savedNews = []

end Session

def sessions [Canonical] (κ : Type) : Machine (Session κ) (Event κ) where
  step := Session.step

/-- A sign-out finds nothing saved, and so does a sign-in that replaces the user of another
account; an answer to an account that is not signed in any more brings nothing. -/
def Isolating (s : Session κ) : Event κ → Prop
  | .signOut true => s.news.savedUrls = [] ∧ s.news.savedNews = []
  | .signIn user => ∀ current ∈ s.currentUser, current.uid ≠ user.uid →
      s.news.savedUrls = [] ∧ s.news.savedNews = []
  | .act (.deliver j) => ∀ picked ∈ pick s.store.ready j,
      s.currentUser.map User.uid = some picked.1.uid ∨ picked.1.urls = []
  | _ => True

instance (s : Session κ) : (event : Event κ) → Decidable (Isolating s event)
  | .signOut true => inferInstanceAs (Decidable (_ ∧ _))
  | .signIn _ => inferInstanceAs (Decidable (∀ _ ∈ _, _ → _))
  | .act (.deliver _) => inferInstanceAs (Decidable (∀ _ ∈ _, _))
  | .signOut false | .clearSavedNews | .act (.call _) | .act (.execute _ _)
  | .act (.delete _ _) => inferInstanceAs (Decidable True)

/-! ## The saved articles belong to the signed-in account -/

section Owned

variable {s s' : Session κ}

theorem articles_of_urls {reply : Reply κ} (h : reply.urls = []) : reply.articles = [] := by
  rcases reply with ⟨_, _, _, _ | _⟩ | ⟨_, _, _, _⟩ | ⟨_, _ | documents⟩ | ⟨_, _⟩
  case added.some => cases h
  case ordered.some =>
      obtain rfl := List.map_eq_nil_iff.mp h
      rfl
  all_goals rfl

theorem owned_of_empty (hurls : s.news.savedUrls = []) (hnews : s.news.savedNews = []) :
    s.Owned := by
  unfold Session.Owned
  rw [hurls, hnews]
  cases s.currentUser <;> simp

/-- A closure keeps some of the saved urls and articles and adds those that its
answer brings. -/
theorem react_brings [Canonical] {t t' : State κ} {reply : Reply κ} {answers : List (κ × Bool)}
    (h : t.react reply.closure = some (t', answers)) :
    (∀ url ∈ t'.app.news.savedUrls, url ∈ t.app.news.savedUrls ∨ url ∈ reply.urls) ∧
      ∀ article ∈ t'.app.news.savedNews,
        article ∈ t.app.news.savedNews ∨ article ∈ reply.articles := by
  rcases reply with ⟨_, _, _, _ | _⟩ | ⟨_, _, _, _ | _⟩ | ⟨_, _ | _⟩ | ⟨_, _ | _⟩ <;>
    · simp only [react_added_failed, react_added, react_matched_failed, react_matched,
        react_ordered_failed, react_ordered, react_listed_failed, react_listed] at h
      obtain ⟨rfl, -⟩ := Prod.mk.inj (Option.some.inj h)
      simp only [Reply.urls, Reply.articles]
      grind

theorem mem_recorded {α : Type} {old brought now : List α} {log : List (Uid × α)}
    {uid own : Uid} (hold : ∀ x ∈ old, (own, x) ∈ log) (hown : own = uid ∨ brought = [])
    (hnow : ∀ x ∈ now, x ∈ old ∨ x ∈ brought) :
    ∀ x ∈ now, (own, x) ∈ log ++ brought.map fun x => (uid, x) := by
  intro x hx
  rw [List.mem_append]
  rcases hnow x hx with hx | hx
  · exact Or.inl (hold x hx)
  · rcases hown with rfl | hnone
    · exact Or.inr (List.mem_map_of_mem hx)
    · rw [hnone] at hx
      cases hx

theorem eq_nil_of_brings {α : Type} {old brought now : List α} (hold : old = [])
    (hbrought : brought = []) (hnow : ∀ x ∈ now, x ∈ old ∨ x ∈ brought) : now = [] := by
  rw [hold, hbrought] at hnow
  apply List.eq_nil_iff_forall_not_mem.mpr
  intro x hx
  simpa using hnow x hx

theorem owned_deliver [Canonical] {j : Nat} {store : State κ} {answers : List (κ × Bool)}
    (howned : s.Owned) (hisolating : Isolating s (.act (.deliver j)))
    (h : s.store.act (.deliver j) = some (store, answers)) :
    ({ s.record (.deliver j) with store := store } : Session κ).Owned := by
  obtain ⟨reply, ready, hpick, hreact⟩ := act_deliver h
  obtain ⟨-, -, -, huser⟩ := react_frame reply hreact
  obtain ⟨hurls, harticles⟩ := react_brings hreact
  have hreply := hisolating (reply, ready) hpick
  unfold Session.Owned Session.currentUser at howned ⊢
  simp only [Session.record, hpick, Session.news] at howned ⊢
  rw [huser]
  cases hcurrent : s.store.app.currentUser with
  | none =>
      have hnone : reply.urls = [] := by
        rcases hreply with hreply | hreply
        · rw [Session.currentUser, hcurrent] at hreply
          cases hreply
        · exact hreply
      simp only [hcurrent] at howned ⊢
      exact ⟨eq_nil_of_brings howned.1 hnone hurls,
        eq_nil_of_brings howned.2 (articles_of_urls hnone) harticles⟩
  | some user =>
      have hown : user.uid = reply.uid ∨ reply.urls = [] := by
        rw [Session.currentUser, hcurrent] at hreply
        exact hreply.imp_left Option.some.inj
      simp only [hcurrent] at howned ⊢
      exact ⟨mem_recorded howned.1 hown hurls,
        mem_recorded howned.2 (hown.imp_right articles_of_urls) harticles⟩

theorem act_app [Canonical] {t t' : State κ} {a : Action κ} {answers : List (κ × Bool)}
    (ha : ∀ j, a ≠ .deliver j) (h : t.act a = some (t', answers)) : t'.app = t.app := by
  cases a with
  | call operation =>
      rw [act_call_asks, Option.map_eq_some_iff] at h
      obtain ⟨asked, -, hs⟩ := h
      obtain ⟨rfl, -⟩ := Prod.mk.inj hs
      rfl
  | execute i ok =>
      obtain ⟨request, waiting, -, rfl, -⟩ := act_execute h
      exact executed_app request ok
  | delete uid id =>
      obtain ⟨-, -, rfl⟩ := act_delete h
      rfl
  | deliver j => exact absurd rfl (ha j)

theorem owned_signIn {user : User} (howned : s.Owned) (hisolating : Isolating s (.signIn user)) :
    (s.withApp { s.store.app with currentUser := some user }).Owned := by
  cases hcurrent : s.currentUser with
  | none =>
      rw [Session.Owned, hcurrent] at howned
      exact owned_of_empty howned.1 howned.2
  | some current =>
      by_cases huid : current.uid = user.uid
      · rw [Session.Owned, hcurrent] at howned
        obtain ⟨hurls, hnews⟩ := howned
        rw [huid] at hurls hnews
        exact ⟨hurls, hnews⟩
      · obtain ⟨hurls, hnews⟩ := hisolating current hcurrent huid
        exact owned_of_empty hurls hnews

theorem owned_step [Canonical] {event : Event κ} (howned : s.Owned) (hisolating : Isolating s event)
    (h : (sessions κ).step s event = some s') : s'.Owned := by
  cases event with
  | act a =>
      obtain ⟨⟨store, answers⟩, hact, rfl⟩ := Option.map_eq_some_iff.mp h
      cases a with
      | deliver j => exact owned_deliver howned hisolating hact
      | call operation | execute i ok | delete uid id =>
          have happ : store.app = s.store.app := act_app (by simp) hact
          unfold Session.Owned Session.currentUser Session.news at howned ⊢
          simp only [Session.record, happ]
          exact howned
  | signOut ok =>
      obtain rfl := Option.some.inj h
      cases ok with
      | true => exact hisolating
      | false => exact howned
  | signIn user =>
      obtain rfl := Option.some.inj h
      exact owned_signIn howned hisolating
  | clearSavedNews =>
      obtain rfl := Option.some.inj h
      unfold Session.Owned at howned ⊢
      change match s.currentUser with
        | some user => (∀ url ∈ s.news.savedUrls, (user.uid, url) ∈ s.urls) ∧
            ∀ article ∈ [], (user.uid, article) ∈ s.articles
        | none => s.news.savedUrls = [] ∧ [] = []
      cases hcurrent : s.currentUser with
      | none =>
          rw [hcurrent] at howned
          exact ⟨howned.1, rfl⟩
      | some user =>
          rw [hcurrent] at howned
          exact ⟨howned.1, by simp⟩

end Owned

/-! ## Two sessions that differ in what the first account had saved -/

/-- Answers that differ in the first account's documents only. -/
inductive ReplyAlike (first : Uid) : Reply κ → Reply κ → Prop
  | same (reply : Reply κ) : ReplyAlike first reply reply
  | matched (url : String) (completion : κ) (documents documents' : List SavedDocument) :
      ReplyAlike first (.matched first url completion (some documents))
        (.matched first url completion (some documents'))
  | ordered (documents documents' : List SavedDocument) :
      ReplyAlike first (.ordered first (some documents)) (.ordered first (some documents'))
  | listed (documents documents' : List SavedDocument) :
      ReplyAlike first (.listed first (some documents)) (.listed first (some documents'))

/-- The servers differ in the first account's documents only. -/
structure ServerAlike (first : Uid) (server server' : Server) : Prop where
  nextId : server.nextId = server'.nextId
  saved : ∀ uid, uid ≠ first → server.saved uid = server'.saved uid

/-- The sessions differ in the first account's documents and in what the client
holds of them; nobody but the first account sees a difference. -/
structure Alike (first : Uid) (s t : Session κ) : Prop where
  currentUser : s.currentUser = t.currentUser
  waiting : s.store.waiting = t.store.waiting
  ready : List.Forall₂ (ReplyAlike first) s.store.ready t.store.ready
  server : ServerAlike first s.store.server t.store.server
  marks : (∀ user, s.currentUser = some user → user.uid ≠ first) →
    s.news.savedUrls = t.news.savedUrls ∧ s.news.savedNews = t.news.savedNews

section Alike

variable {first : Uid} {s t s' t' : Session κ}

theorem ServerAlike.add {server server' : Server} (h : ServerAlike first server server')
    (uid : Uid) (data : SavedData) :
    ServerAlike first (server.add uid data) (server'.add uid data) := by
  refine ⟨congrArg Nat.succ h.nextId, fun u hu => ?_⟩
  have hnew : server.newDocument data = server'.newDocument data := by
    simp only [Server.newDocument, h.nextId]
  by_cases huid : u = uid
  · subst huid
    rw [Server.saved_add, Server.saved_add, h.saved u hu, hnew]
  · rw [Server.saved_add_of_ne _ huid, Server.saved_add_of_ne _ huid]
    exact h.saved u hu

theorem ServerAlike.delete {server server' : Server} (h : ServerAlike first server server')
    (uid : Uid) (id : DocumentId) :
    ServerAlike first (server.delete uid id) (server'.delete uid id) := by
  refine ⟨h.nextId, fun u hu => ?_⟩
  by_cases huid : u = uid
  · subst huid
    rw [Server.saved_delete, Server.saved_delete, h.saved u hu]
  · rw [Server.saved_delete_of_ne _ huid, Server.saved_delete_of_ne _ huid]
    exact h.saved u hu

theorem ServerAlike.delete_first {server server' : Server} (h : ServerAlike first server server')
    (id : DocumentId) : ServerAlike first (server.delete first id) server' := by
  refine ⟨h.nextId, fun u hu => ?_⟩
  rw [Server.saved_delete_of_ne _ hu]
  exact h.saved u hu

theorem ServerAlike.symm {server server' : Server} (h : ServerAlike first server server') :
    ServerAlike first server' server :=
  ⟨h.nextId.symm, fun uid huid => (h.saved uid huid).symm⟩

theorem replyAlike_query {server server' : Server} (hserver : ServerAlike first server server')
    (reply : Option (List SavedDocument) → Reply κ) {uid : Uid}
    (hfirst : uid = first → ∀ documents documents',
      ReplyAlike first (reply (some documents)) (reply (some documents')))
    (find : List SavedDocument → List SavedDocument) (ok : Bool) :
    ReplyAlike first (reply (if ok then some (find (server.saved uid)) else none))
      (reply (if ok then some (find (server'.saved uid)) else none)) := by
  cases ok with
  | false => exact .same _
  | true =>
      by_cases huid : uid = first
      · exact hfirst huid _ _
      · rw [hserver.saved uid huid]
        exact .same _

theorem executed_alike {a b : State κ} (hwaiting : a.waiting = b.waiting)
    (hready : List.Forall₂ (ReplyAlike first) a.ready b.ready)
    (hserver : ServerAlike first a.server b.server) (request : SavedRequest κ) (ok : Bool) :
    (a.executed request ok).waiting = (b.executed request ok).waiting ∧
      List.Forall₂ (ReplyAlike first) (a.executed request ok).ready
        (b.executed request ok).ready ∧
      ServerAlike first (a.executed request ok).server (b.executed request ok).server := by
  have hconcat : ∀ {r r' : Reply κ}, ReplyAlike first r r' →
      List.Forall₂ (ReplyAlike first) (a.ready ++ [r]) (b.ready ++ [r']) := fun h =>
    List.rel_append hready (.cons h .nil)
  cases request with
  | addDocument uid article completion =>
      cases ok with
      | false => exact ⟨hwaiting, hconcat (.same _), hserver⟩
      | true =>
          have hnew : a.server.newDocument (saveArticle.data article) =
              b.server.newDocument (saveArticle.data article) := by
            simp only [Server.newDocument, hserver.nextId]
          refine ⟨hwaiting, ?_, hserver.add uid _⟩
          simp only [State.executed, if_true]
          rw [hnew]
          exact hconcat (.same _)
  | whereUrl uid url completion =>
      refine ⟨hwaiting, hconcat (replyAlike_query hserver (.matched uid url completion) ?_ _ ok),
        hserver⟩
      rintro rfl documents documents'
      exact .matched url completion documents documents'
  | orderedBySavedAt uid =>
      refine ⟨hwaiting, hconcat (replyAlike_query hserver (.ordered uid) ?_ _ ok), hserver⟩
      rintro rfl documents documents'
      exact .ordered documents documents'
  | getDocuments uid =>
      refine ⟨hwaiting, hconcat (replyAlike_query hserver (.listed uid) ?_ id ok), hserver⟩
      rintro rfl documents documents'
      exact .listed documents documents'
  | delete uid id => exact ⟨hwaiting, hready, hserver⟩

theorem react_same [Canonical] {a b a' b' : State κ} {answers answers' : List (κ × Bool)} (reply : Reply κ)
    (hurls : a.app.news.savedUrls = b.app.news.savedUrls)
    (hnews : a.app.news.savedNews = b.app.news.savedNews)
    (ha : a.react reply.closure = some (a', answers))
    (hb : b.react reply.closure = some (b', answers')) :
    a'.app.news.savedUrls = b'.app.news.savedUrls ∧
      a'.app.news.savedNews = b'.app.news.savedNews := by
  rcases reply with ⟨_, _, _, _ | _⟩ | ⟨_, _, _, _ | _⟩ | ⟨_, _ | _⟩ | ⟨_, _ | _⟩ <;>
    · simp only [react_added_failed, react_added, react_matched_failed, react_matched,
        react_ordered_failed, react_ordered, react_listed_failed, react_listed] at ha hb
      obtain ⟨rfl, -⟩ := Prod.mk.inj (Option.some.inj ha)
      obtain ⟨rfl, -⟩ := Prod.mk.inj (Option.some.inj hb)
      simp [hurls, hnews]

/-- Alike answers, run on two stores with the same saved urls and articles, where
they bring nothing unless they are the same. -/
theorem react_alike [Canonical] {a b a' b' : State κ} {answers answers' : List (κ × Bool)}
    {reply reply' : Reply κ} (halike : ReplyAlike first reply reply')
    (hbrings : reply.uid = first → reply.urls = []) (hbrings' : reply'.uid = first → reply'.urls = [])
    (hurls : a.app.news.savedUrls = b.app.news.savedUrls)
    (hnews : a.app.news.savedNews = b.app.news.savedNews)
    (ha : a.react reply.closure = some (a', answers))
    (hb : b.react reply'.closure = some (b', answers')) :
    a'.app.news.savedUrls = b'.app.news.savedUrls ∧
      a'.app.news.savedNews = b'.app.news.savedNews := by
  cases halike with
  | same => exact react_same reply hurls hnews ha hb
  | matched url completion documents documents' =>
      rw [react_matched] at ha hb
      obtain ⟨rfl, -⟩ := Prod.mk.inj (Option.some.inj ha)
      obtain ⟨rfl, -⟩ := Prod.mk.inj (Option.some.inj hb)
      simp [hurls, hnews]
  | ordered documents documents' =>
      obtain rfl : documents = [] := List.map_eq_nil_iff.mp (hbrings rfl)
      obtain rfl : documents' = [] := List.map_eq_nil_iff.mp (hbrings' rfl)
      exact react_same _ hurls hnews ha hb
  | listed documents documents' =>
      obtain rfl : documents = [] := List.map_eq_nil_iff.mp (hbrings rfl)
      obtain rfl : documents' = [] := List.map_eq_nil_iff.mp (hbrings' rfl)
      exact react_same _ hurls hnews ha hb

theorem alike_deliver [Canonical] {j : Nat} (halike : Alike first s t)
    (hs : Isolating s (.act (.deliver j))) (ht : Isolating t (.act (.deliver j)))
    (h : (sessions κ).step s (.act (.deliver j)) = some s')
    (h' : (sessions κ).step t (.act (.deliver j)) = some t') : Alike first s' t' := by
  obtain ⟨⟨store, answers⟩, hact, rfl⟩ := Option.map_eq_some_iff.mp h
  obtain ⟨⟨store', answers'⟩, hact', rfl⟩ := Option.map_eq_some_iff.mp h'
  obtain ⟨reply, ready, hpick, hreact⟩ := act_deliver hact
  obtain ⟨reply', ready', hpick', hreact'⟩ := act_deliver hact'
  obtain ⟨hreply, hrest⟩ := pick_forall₂ halike.ready hpick hpick'
  obtain ⟨hserver, hwaiting, hready, huser⟩ := react_frame reply hreact
  obtain ⟨hserver', hwaiting', hready', huser'⟩ := react_frame reply' hreact'
  have hcurrent : s.store.app.currentUser = t.store.app.currentUser := halike.currentUser
  refine ⟨?_, ?_, ?_, ?_, ?_⟩
  · exact huser.trans (hcurrent.trans huser'.symm)
  · exact hwaiting.trans (halike.waiting.trans hwaiting'.symm)
  · change List.Forall₂ (ReplyAlike first) store.ready store'.ready
    rw [hready, hready']
    exact hrest
  · change ServerAlike first store.server store'.server
    rw [hserver, hserver']
    exact halike.server
  · intro hother
    have hnotfirst : ∀ user, s.currentUser = some user → user.uid ≠ first := fun user hu =>
      hother user (huser.trans hu)
    obtain ⟨hurls, hnews⟩ := halike.marks hnotfirst
    have hbrings : reply.uid = first → reply.urls = [] := by
      intro hfirst
      rcases hs (reply, ready) hpick with hcur | hnone
      · obtain ⟨user, hu, huid⟩ := Option.map_eq_some_iff.mp hcur
        exact absurd (huid.trans hfirst) (hnotfirst user hu)
      · exact hnone
    have hbrings' : reply'.uid = first → reply'.urls = [] := by
      intro hfirst
      rcases ht (reply', ready') hpick' with hcur | hnone
      · obtain ⟨user, hu, huid⟩ := Option.map_eq_some_iff.mp hcur
        exact absurd (huid.trans hfirst) (hnotfirst user (halike.currentUser.trans hu))
      · exact hnone
    exact react_alike (a := { s.store with ready := ready })
      (b := { t.store with ready := ready' }) hreply hbrings hbrings' hurls hnews hreact hreact'

theorem alike_call [Canonical] {operation : Operation κ} (halike : Alike first s t)
    (h : (sessions κ).step s (.act (.call operation)) = some s')
    (h' : (sessions κ).step t (.act (.call operation)) = some t') : Alike first s' t' := by
  obtain ⟨⟨store, answers⟩, hact, rfl⟩ := Option.map_eq_some_iff.mp h
  obtain ⟨⟨store', answers'⟩, hact', rfl⟩ := Option.map_eq_some_iff.mp h'
  rw [act_call_asks, Option.map_eq_some_iff] at hact hact'
  obtain ⟨asked, hasked, heq⟩ := hact
  obtain ⟨asked', hasked', heq'⟩ := hact'
  obtain ⟨rfl, -⟩ := Prod.mk.inj heq
  obtain ⟨rfl, -⟩ := Prod.mk.inj heq'
  -- the same user asks the same
  have hcurrent : s.store.app.currentUser = t.store.app.currentUser := halike.currentUser
  rw [hcurrent, hasked'] at hasked
  obtain rfl := Option.some.inj hasked
  exact ⟨halike.currentUser, congrArg (· ++ asked') halike.waiting, halike.ready,
    halike.server, halike.marks⟩

theorem alike_execute [Canonical] {i : Nat} {ok : Bool} (halike : Alike first s t)
    (h : (sessions κ).step s (.act (.execute i ok)) = some s')
    (h' : (sessions κ).step t (.act (.execute i ok)) = some t') : Alike first s' t' := by
  obtain ⟨⟨store, answers⟩, hact, rfl⟩ := Option.map_eq_some_iff.mp h
  obtain ⟨⟨store', answers'⟩, hact', rfl⟩ := Option.map_eq_some_iff.mp h'
  obtain ⟨request, waiting, hpick, rfl, -⟩ := act_execute hact
  obtain ⟨request', waiting', hpick', rfl, -⟩ := act_execute hact'
  rw [halike.waiting, hpick'] at hpick
  obtain ⟨rfl, rfl⟩ := Prod.mk.inj (Option.some.inj hpick)
  obtain ⟨hwaiting, hready, hserver⟩ := executed_alike
    (a := { s.store with waiting := waiting' }) (b := { t.store with waiting := waiting' })
    rfl halike.ready halike.server request' ok
  have happ := executed_app (s := { s.store with waiting := waiting' }) request' ok
  have happ' := executed_app (s := { t.store with waiting := waiting' }) request' ok
  refine ⟨?_, hwaiting, hready, hserver, ?_⟩
  · simp only [Session.currentUser, happ, happ']
    exact halike.currentUser
  · simp only [Session.currentUser, Session.news, happ, happ']
    exact halike.marks

theorem marks_signIn {user : User} (halike : Alike first s t) (hs : Isolating s (.signIn user))
    (ht : Isolating t (.signIn user))
    (hother : ∀ current, some user = some current → current.uid ≠ first) :
    s.news.savedUrls = t.news.savedUrls ∧ s.news.savedNews = t.news.savedNews := by
  by_cases hstays : ∀ current, s.currentUser = some current → current.uid = user.uid
  · refine halike.marks fun current hcurrent => ?_
    rw [hstays current hcurrent]
    exact hother user rfl
  · simp only [not_forall] at hstays
    obtain ⟨current, hcurrent, huid⟩ := hstays
    obtain ⟨hurls, hnews⟩ := hs current hcurrent huid
    obtain ⟨hurls', hnews'⟩ := ht current (halike.currentUser.symm.trans hcurrent) huid
    exact ⟨hurls.trans hurls'.symm, hnews.trans hnews'.symm⟩

theorem alike_signOut [Canonical] {ok : Bool} (halike : Alike first s t)
    (hs : Isolating s (.signOut ok)) (ht : Isolating t (.signOut ok))
    (h : (sessions κ).step s (.signOut ok) = some s')
    (h' : (sessions κ).step t (.signOut ok) = some t') : Alike first s' t' := by
  obtain rfl := Option.some.inj h
  obtain rfl := Option.some.inj h'
  cases ok with
  | true =>
      obtain ⟨hurls, hnews⟩ := hs
      obtain ⟨hurls', hnews'⟩ := ht
      exact ⟨rfl, halike.waiting, halike.ready, halike.server, fun _ =>
        ⟨hurls.trans hurls'.symm, hnews.trans hnews'.symm⟩⟩
  | false => exact halike

/-- The same isolating step keeps two sessions alike. -/
theorem alike_both [Canonical] {event : Event κ} (halike : Alike first s t) (hs : Isolating s event)
    (ht : Isolating t event) (h : (sessions κ).step s event = some s')
    (h' : (sessions κ).step t event = some t') : Alike first s' t' := by
  cases event with
  | act a =>
      cases a with
      | deliver j => exact alike_deliver halike hs ht h h'
      | call operation => exact alike_call halike h h'
      | execute i ok => exact alike_execute halike h h'
      | delete uid id =>
          obtain ⟨⟨store, answers⟩, hact, rfl⟩ := Option.map_eq_some_iff.mp h
          obtain ⟨⟨store', answers'⟩, hact', rfl⟩ := Option.map_eq_some_iff.mp h'
          obtain ⟨-, -, rfl⟩ := act_delete hact
          obtain ⟨-, -, rfl⟩ := act_delete hact'
          exact ⟨halike.currentUser, halike.waiting, halike.ready, halike.server.delete uid id,
            halike.marks⟩
  | signOut ok => exact alike_signOut halike hs ht h h'
  | signIn user =>
      obtain rfl := Option.some.inj h
      obtain rfl := Option.some.inj h'
      exact ⟨rfl, halike.waiting, halike.ready, halike.server,
        marks_signIn (s := s) (t := t) halike hs ht⟩
  | clearSavedNews =>
      obtain rfl := Option.some.inj h
      obtain rfl := Option.some.inj h'
      exact ⟨halike.currentUser, halike.waiting, halike.ready, halike.server, fun hother =>
        ⟨(halike.marks hother).1, rfl⟩⟩

def DeletesOf (first : Uid) (event : Event κ) : Prop := ∃ id, event = .act (.delete first id)

theorem alike_left [Canonical] {event : Event κ} (hsilent : DeletesOf first event) (halike : Alike first s t)
    (h : (sessions κ).step s event = some s') : Alike first s' t := by
  obtain ⟨id, rfl⟩ := hsilent
  obtain ⟨⟨store, answers⟩, hact, rfl⟩ := Option.map_eq_some_iff.mp h
  obtain ⟨-, -, rfl⟩ := act_delete hact
  exact ⟨halike.currentUser, halike.waiting, halike.ready, halike.server.delete_first id,
    halike.marks⟩

theorem alike_right [Canonical] {event : Event κ} (hsilent : DeletesOf first event) (halike : Alike first s t)
    (h : (sessions κ).step t event = some t') : Alike first s t' := by
  obtain ⟨id, rfl⟩ := hsilent
  obtain ⟨⟨store, answers⟩, hact, rfl⟩ := Option.map_eq_some_iff.mp h
  obtain ⟨-, -, rfl⟩ := act_delete hact
  exact ⟨halike.currentUser, halike.waiting, halike.ready,
    (halike.server.symm.delete_first id).symm, halike.marks⟩

end Alike

/-! ## Isolation -/

theorem owned_of_launched {s : Session κ} (h : s.Launched) : s.Owned :=
  owned_of_empty h.2.1 h.2.2

theorem alike_of_launched {first : Uid} {s t : Session κ} (hs : s.Launched) (ht : t.Launched)
    (hcurrent : s.currentUser = t.currentUser)
    (hserver : ServerAlike first s.store.server t.store.server) : Alike first s t := by
  obtain ⟨⟨hwaiting, hready, -⟩, hurls, hnews⟩ := hs
  obtain ⟨⟨hwaiting', hready', -⟩, hurls', hnews'⟩ := ht
  refine ⟨hcurrent, hwaiting.trans hwaiting'.symm, ?_, hserver, fun _ =>
    ⟨hurls.trans hurls'.symm, hnews.trans hnews'.symm⟩⟩
  rw [hready, hready']
  exact .nil

/-- **Isolation.** In a process whose sign-outs find nothing saved, and in which
late answers to an account that is gone bring nothing, the saved urls and articles
are at all times those of the account signed in; and two such processes that
differ only in what the first account had saved show every other account, and a
guest, the same saved urls and articles. -/
theorem saved_isolated [Canonical] {s₀ : Session κ} {events : List (Event κ)} (hlaunched : s₀.Launched)
    (hisolating : (sessions κ).Meets Isolating s₀ events) :
    (sessions κ).Always Session.Owned s₀ events ∧
    ∀ (first : Uid) (t₀ s t : Session κ) (events' : List (Event κ)), t₀.Launched →
      s₀.currentUser = t₀.currentUser → ServerAlike first s₀.store.server t₀.store.server →
      Machine.Aligned (DeletesOf first) events events' →
      (sessions κ).Meets Isolating t₀ events' →
      (sessions κ).run s₀ events = some s → (sessions κ).run t₀ events' = some t →
      (∀ user, s.currentUser = some user → user.uid ≠ first) →
      s.news.savedUrls = t.news.savedUrls ∧ s.news.savedNews = t.news.savedNews := by
  constructor
  · exact (sessions κ).always_of_meets (I := Session.Owned) owned_step id
      (owned_of_launched hlaunched) hisolating
  · intro first t₀ s t events' hlaunched' hcurrent hserver haligned hisolating' hs ht hother
    have halike₀ : Alike first s₀ t₀ := alike_of_launched hlaunched hlaunched' hcurrent hserver
    have halike : Alike first s t :=
      (sessions κ).run_aligned (R := Alike first) alike_both
        (fun hsilent halike _ h => alike_left hsilent halike h)
        (fun hsilent halike _ h => alike_right hsilent halike h)
        haligned halike₀ hisolating hisolating' hs ht
    exact halike.marks hother

/-- The reader signs out right after the launch. A login finds no document and leaves its sheet
up, a second one replaces its user, who fetches the own saved articles. -/
def handover : List (Event Unit) :=
  [.signOut true, .signIn ⟨"first", none⟩, .signIn ⟨"second", none⟩, .act (.call .getSavedNews),
    .act (.execute 0 true), .act (.deliver 0)]

def storySaved : State Unit :=
  { emptyStart with server := Server.empty.add "reader" (saveArticle.data story) }

def storyUnsaved : State Unit :=
  { emptyStart with server := storySaved.server.delete "reader" 0 }

theorem saved_isolated_handover :
    (sessions Unit).Always Session.Owned { store := storyUnsaved } handover ∧
      ∃ s t, (sessions Unit).run { store := storyUnsaved } handover = some s ∧
        (sessions Unit).run { store := storySaved } handover = some t ∧
        s.news.savedUrls = t.news.savedUrls ∧ s.news.savedNews = t.news.savedNews := by
  have hlaunched : ({ store := storyUnsaved } : Session Unit).Launched := ⟨by decide, rfl, rfl⟩
  have hlaunched' : ({ store := storySaved } : Session Unit).Launched := ⟨by decide, rfl, rfl⟩
  have hserver : ServerAlike "reader" storyUnsaved.server storySaved.server :=
    ⟨rfl, fun uid huid => Server.saved_delete_of_ne _ huid 0⟩
  obtain ⟨howned, hsame⟩ := @saved_isolated Unit _ _ handover hlaunched (by decide +kernel)
  obtain ⟨s, hs⟩ : ∃ s, (sessions Unit).run { store := storyUnsaved } handover = some s :=
    Option.isSome_iff_exists.mp (by decide +kernel)
  obtain ⟨t, ht⟩ : ∃ t, (sessions Unit).run { store := storySaved } handover = some t :=
    Option.isSome_iff_exists.mp (by decide +kernel)
  have hother : ∀ s ∈ (sessions Unit).run { store := storyUnsaved } handover,
      ∀ user ∈ s.currentUser, user.uid ≠ "reader" := by decide +kernel
  exact ⟨howned, s, t, hs, ht, hsame "reader" { store := storySaved } s t handover hlaunched' rfl
    hserver (Machine.Aligned.refl _ _) (by decide +kernel) hs ht (hother s hs)⟩

/-- A saved article outlives its account's session. -/
theorem saved_outlives_signOut :
    ¬ ∀ (s₀ s : Session Unit) (events : List (Event Unit)), s₀.Launched →
      (sessions Unit).run s₀ (events ++ [.signOut true]) = some s → s.Owned := by
  intro h
  have hlaunched : ({ store := emptyStart } : Session Unit).Launched :=
    ⟨by decide, rfl, rfl⟩
  have hends : ((sessions Unit).run { store := emptyStart }
      ([.act (.call (.saveArticle story ())), .act (.execute 0 true), .act (.deliver 0)] ++
        [.signOut true])).isSome := by decide +kernel
  have hkept : ∀ s ∈ (sessions Unit).run { store := emptyStart }
      ([.act (.call (.saveArticle story ())), .act (.execute 0 true), .act (.deliver 0)] ++
        [.signOut true]), s.currentUser = none ∧ s.news.savedUrls = [story.key] := by
    decide +kernel
  obtain ⟨s, hs⟩ := Option.isSome_iff_exists.mp hends
  have howned := h _ s _ hlaunched hs
  obtain ⟨hguest, hurls⟩ := hkept s hs
  rw [Session.Owned, hguest, hurls] at howned
  cases howned.1

end NewsFlash.SavedStore
