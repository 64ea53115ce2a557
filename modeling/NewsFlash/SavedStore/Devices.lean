import NewsFlash.SavedStore.Coherence

/-!
# Saved articles on several devices

The server and the deletes that it has yet to execute are shared by all devices; every device
has its own requests and answers, and its own copy of the urls that are saved for its user. A
device hears of the saves and unsaves of another one only when it fetches. `Restores` says which
answers make a copy whole again, whatever it was before. A device whose process ends takes no
more steps, but the server may still execute what it has sent.
-/

namespace NewsFlash.SavedStore.Devices

open NewsFlash.Library NewsFlash.Models NewsFlash.Models.Networking

/-! ## Devices around one server -/

/-- A device is `upToDate` if it has received a listing in time, and since then no answer of its
own has come too late and no other device has changed what stands for its account. -/
structure Device (κ : Type) where
  app : App
  waiting : List (SavedRequest κ) := []
  ready : List (Reply κ) := []
  upToDate : Bool := false

structure World (ι κ : Type) where
  server : Server
  deletes : List (Uid × DocumentId) := []
  devices : ι → Device κ

/-- A listing makes the copy whole. `updateSavedUrls` leaves the saved articles as they are, so
they have to be listed too. -/
def Restores {κ : Type} (s : State κ) : Reply κ → Prop
  | .ordered _ (some _) => True
  | .listed _ (some documents) => ∀ article ∈ s.app.news.savedNews,
      article.key ∈ (documents.map fun document => document.data.url) ∨ article.key ∈ s.landedUrls
  | _ => False

instance {κ : Type} (s : State κ) : (reply : Reply κ) → Decidable (Restores s reply)
  | .ordered _ (some _) => inferInstanceAs (Decidable True)
  | .listed _ (some _) => inferInstanceAs (Decidable (∀ _ ∈ _, _))
  | .ordered _ none | .listed _ none | .added _ _ _ _ | .matched _ _ _ _ =>
      inferInstanceAs (Decidable False)

/-- What the own steps of a device make of a copy that is up to date, or is not. -/
def keepsUp [Canonical] {κ : Type} (uid : Uid) (s : State κ) (upToDate : Bool) : Action κ → Bool
  | .deliver k => ((pick s.ready k).map fun (reply, _) =>
      decide (TimelyReply uid s reply) && (upToDate || decide (Restores s reply))).getD upToDate
  | .call _ | .execute _ _ | .delete _ _ => upToDate

namespace World

variable {ι κ : Type}

/-- The store as one device takes part in it. -/
def view (w : World ι κ) (i : ι) : State κ where
  app := (w.devices i).app
  server := w.server
  waiting := (w.devices i).waiting
  ready := (w.devices i).ready
  deletes := w.deletes

def after [Canonical] [DecidableEq ι] (user : ι → User) (w : World ι κ) (i : ι) (a : Action κ) (s : State κ) :
    World ι κ where
  server := s.server
  deletes := s.deletes
  devices j :=
    if j = i then
      { app := s.app
        waiting := s.waiting
        ready := s.ready
        upToDate := keepsUp (user i).uid (w.view i) (w.devices i).upToDate a }
    else
      { w.devices j with
        upToDate := (w.devices j).upToDate &&
          s.standingUrls (user j).uid = (w.view i).standingUrls (user j).uid }

def step [Canonical] [DecidableEq ι] (user : ι → User) (w : World ι κ) :
    ι × Action κ → Option (World ι κ)
  | (i, a) => ((w.view i).act a).map fun (s, _) => w.after user i a s

end World

/-- One user is signed in on each device, and stays so. -/
def machine [Canonical] {ι : Type} [DecidableEq ι] (user : ι → User) (κ : Type) :
    Machine (World ι κ) (ι × Action κ) where
  step := World.step user

/-! ## What the devices agree on -/

/-- The copy is up to date, and the device has been told of all its saves that have landed. -/
def Settled {ι κ : Type} (w : World ι κ) (i : ι) : Prop :=
  (w.devices i).upToDate = true ∧ (w.view i).landedUrls = []

instance {ι κ : Type} (w : World ι κ) (i : ι) : Decidable (Settled w i) :=
  inferInstanceAs (Decidable (_ ∧ _))

/-- A settled device has the urls that stand for its account. They are those on the server once
no delete of the account waits, and other settled devices of the account have the same. -/
structure Mirrored {ι κ : Type} (user : ι → User) (w : World ι κ) : Prop where
  stands : ∀ i, Settled w i → ∀ url,
    url ∈ (w.devices i).app.news.savedUrls ↔ url ∈ (w.view i).standingUrls (user i).uid
  coherent : ∀ i, Settled w i → (∀ entry ∈ w.deletes, entry.1 ≠ (user i).uid) →
    (w.view i).Coherent (user i).uid ∧ (w.view i).Covered
  agree : ∀ i j, Settled w i → Settled w j → (user i).uid = (user j).uid → ∀ url,
    url ∈ (w.devices i).app.news.savedUrls ↔ url ∈ (w.devices j).app.news.savedUrls

/-! ## Documents grow older -/

def Later (server server' : Server) : Prop :=
  server.nextId ≤ server'.nextId ∧
    ∀ uid, ∀ d ∈ server'.saved uid, d ∈ server.saved uid ∨ server.nextId ≤ d.id

/-- What an answer says of a document that is still there. -/
def SoundReply {κ : Type} (uid : Uid) (server : Server) : Reply κ → Prop
  | .added _ article _ (some document) => document.data.url = article.key
  | .matched _ url _ (some documents) => ∀ document ∈ documents, document.id < server.nextId ∧
      ∀ d ∈ server.saved uid, d.id = document.id → d.data.url = url
  | _ => True

structure Sound {κ : Type} (uid : Uid) (s : State κ) : Prop where
  deletesOld : ∀ entry ∈ s.deletes, entry.2 < s.server.nextId
  replies : ∀ reply ∈ s.ready, SoundReply uid s.server reply

section Documents

variable {κ : Type} {user : User} {uid : Uid} {server server' : Server} {s s' : State κ}
  {answers : List (κ × Bool)}

theorem Later.refl (server : Server) : Later server server :=
  ⟨Nat.le_refl _, fun _ _ hd => Or.inl hd⟩

theorem later_add (uid : Uid) (data : SavedData) : Later server (server.add uid data) := by
  refine ⟨Nat.le_succ _, fun u d hd => ?_⟩
  by_cases hu : u = uid
  · subst hu
    rw [Server.saved_add, List.mem_append, List.mem_singleton] at hd
    rcases hd with hd | rfl
    · exact Or.inl hd
    · exact Or.inr (Nat.le_refl _)
  · rw [Server.saved_add_of_ne _ hu] at hd
    exact Or.inl hd

theorem later_executed (request : SavedRequest κ) (ok : Bool) :
    Later s.server (s.executed request ok).server := by
  cases request with
  | addDocument uid article completion =>
      cases ok with
      | true => exact later_add uid _
      | false => exact Later.refl _
  | whereUrl | orderedBySavedAt | getDocuments | delete => exact Later.refl _

theorem act_later [Canonical] {a : Action κ} (h : s.act a = some (s', answers)) : Later s.server s'.server := by
  cases a with
  | call operation =>
      rw [act_call_asks] at h
      obtain ⟨asked, -, h⟩ := Option.map_eq_some_iff.mp h
      obtain ⟨rfl, -⟩ := Prod.mk.inj h
      exact Later.refl _
  | execute k ok =>
      obtain ⟨request, waiting, -, rfl, -⟩ := act_execute h
      exact later_executed (s := { s with waiting := waiting }) request ok
  | delete uid id =>
      obtain ⟨-, -, rfl⟩ := act_delete h
      exact ⟨Nat.le_refl _, fun _ _ hd => Or.inl (Server.mem_saved_delete hd)⟩
  | deliver k =>
      obtain ⟨reply, ready, -, hreact⟩ := act_deliver h
      obtain ⟨hserver, -⟩ := react_frame reply hreact
      rw [hserver]
      exact Later.refl _

theorem SoundReply.later {reply : Reply κ} (hlater : Later server server')
    (h : SoundReply uid server reply) : SoundReply uid server' reply := by
  rcases reply with ⟨_, _, _, _ | _⟩ | ⟨_, url, _, _ | documents⟩ | ⟨_, _⟩ | ⟨_, _⟩
  case matched.some =>
    intro document hd
    obtain ⟨hlt, hurl⟩ := h document hd
    refine ⟨Nat.lt_of_lt_of_le hlt hlater.1, fun d hd' hid => ?_⟩
    rcases hlater.2 uid d hd' with hold | hnew
    · exact hurl d hold hid
    · rw [hid] at hnew
      exact absurd hlt (Nat.not_lt.mpr hnew)
  all_goals exact h

theorem soundReply_executed {request : SavedRequest κ} (huid : requestUid request = uid)
    (ok : Bool) : ∀ reply ∈ (s.executed request ok).ready, reply ∈ s.ready ∨
      SoundReply uid (s.executed request ok).server reply := by
  intro reply hreply
  cases request with
  | addDocument u article completion =>
      cases ok with
      | true =>
          rcases List.mem_append.mp hreply with hreply | hreply
          · exact Or.inl hreply
          · obtain rfl := List.mem_singleton.mp hreply
            exact Or.inr rfl
      | false =>
          rcases List.mem_append.mp hreply with hreply | hreply
          · exact Or.inl hreply
          · obtain rfl := List.mem_singleton.mp hreply
            exact Or.inr trivial
  | whereUrl u url completion =>
      obtain rfl : u = uid := huid
      rcases List.mem_append.mp hreply with hreply | hreply
      · exact Or.inl hreply
      · obtain rfl := List.mem_singleton.mp hreply
        cases ok with
        | false => exact Or.inr trivial
        | true =>
            right
            intro document hd
            obtain ⟨hsaved, hurl⟩ := List.mem_filter.mp hd
            refine ⟨s.server.fresh u document hsaved, fun d hd' hid => ?_⟩
            rw [Server.eq_of_id_eq hd' hsaved hid]
            exact eq_of_beq hurl
  | orderedBySavedAt u | getDocuments u =>
      rcases List.mem_append.mp hreply with hreply | hreply
      · exact Or.inl hreply
      · obtain rfl := List.mem_singleton.mp hreply
        exact Or.inr trivial
  | delete u id => exact Or.inl hreply

theorem deletes_react [Canonical] {reply : Reply κ} (hreply : SoundReply uid s.server reply)
    (h : s.react reply.closure = some (s', answers)) : ∀ entry ∈ s'.deletes,
      entry ∈ s.deletes ∨ entry.2 < s.server.nextId := by
  intro entry hentry
  rcases reply with ⟨_, _, _, _ | _⟩ | ⟨_, url, _, _ | documents⟩ | ⟨_, _ | _⟩ | ⟨_, _ | _⟩ <;>
    simp only [react_added_failed, react_added, react_matched_failed, react_matched,
      react_ordered_failed, react_ordered, react_listed_failed, react_listed] at h <;>
    obtain ⟨rfl, -⟩ := Prod.mk.inj (Option.some.inj h)
  case matched.some =>
    rcases List.mem_append.mp hentry with hentry | hentry
    · exact Or.inl hentry
    · obtain ⟨document, hd, rfl⟩ := List.mem_map.mp hentry
      exact Or.inr (hreply document hd).1
  all_goals exact Or.inl hentry

theorem sound_step [Canonical] {a : Action κ} (haccount : OneAccount user s) (hsound : Sound user.uid s)
    (h : s.act a = some (s', answers)) : Sound user.uid s' := by
  have hlater := act_later h
  have hreplies : ∀ reply ∈ s.ready, SoundReply user.uid s'.server reply :=
    fun reply hreply => (hsound.replies reply hreply).later hlater
  have hdeletes : ∀ entry ∈ s.deletes, entry.2 < s'.server.nextId :=
    fun entry hentry => Nat.lt_of_lt_of_le (hsound.deletesOld entry hentry) hlater.1
  cases a with
  | call operation =>
      rw [act_call_asks] at h
      obtain ⟨asked, -, h⟩ := Option.map_eq_some_iff.mp h
      obtain ⟨rfl, -⟩ := Prod.mk.inj h
      exact ⟨hdeletes, hreplies⟩
  | execute k ok =>
      obtain ⟨request, waiting, hpick, rfl, -⟩ := act_execute h
      obtain ⟨hdelete, huid⟩ := haccount.requests request (mem_of_pick hpick)
      constructor
      · have hframe : ({ s with waiting := waiting }.executed request ok).deletes = s.deletes := by
          cases request with
          | addDocument => cases ok <;> rfl
          | whereUrl | orderedBySavedAt | getDocuments | delete => rfl
        rw [hframe]
        exact hdeletes
      · intro reply hreply
        rcases soundReply_executed (s := { s with waiting := waiting }) huid ok reply hreply
          with hold | hnew
        · exact hreplies reply hold
        · exact hnew
  | delete uid id =>
      obtain ⟨-, -, rfl⟩ := act_delete h
      exact ⟨fun entry hentry => hdeletes entry (List.mem_of_mem_erase hentry), hreplies⟩
  | deliver k =>
      obtain ⟨reply, ready, hpick, hreact⟩ := act_deliver h
      obtain ⟨hserver, -, hready, -⟩ := react_frame reply hreact
      constructor
      · intro entry hentry
        rcases deletes_react (s := { s with ready := ready })
          (hsound.replies reply (mem_of_pick hpick)) hreact entry hentry with hold | hlt
        · exact hdeletes entry hold
        · rw [hserver]
          exact hlt
      · intro r hr
        rw [hready] at hr
        exact hreplies r (mem_of_mem_pick hpick hr)

end Documents

/-! ## A copy that is made whole -/

section Copy

variable {κ : Type} {user : User} {s s' : State κ} {answers : List (κ × Bool)}

theorem Sound.coherenceInv (hsound : Sound user.uid s)
    (htracks : Tracks {url | url ∈ s.app.news.savedUrls} {url | url ∈ s.standingUrls user.uid}
      {url | url ∈ s.landedUrls})
    (hcovered : ∀ article ∈ s.app.news.savedNews,
      article.key ∈ s.app.news.savedUrls ∨ article.key ∈ s.landedUrls) :
    CoherenceInv user s where
  deletesOld := hsound.deletesOld
  added _ _ _ _ hreply := hsound.replies _ hreply
  matched _ _ _ _ hreply := hsound.replies _ hreply
  tracks := htracks
  covered := hcovered

/-- A listing that restores the copy, however wrong it was. -/
theorem coherenceInv_restored [Canonical] {k : Nat} {reply : Reply κ} {ready : List (Reply κ)}
    (hsound : Sound user.uid s') (hpick : pick s.ready k = some (reply, ready))
    (htimely : TimelyReply user.uid s reply) (hrestores : Restores s reply)
    (h : { s with ready := ready }.react reply.closure = some (s', answers)) :
    CoherenceInv user s' := by
  have hsame : reply.landed = none →
      ∀ url ∈ s.landedUrls, url ∈ ({ s with ready := ready } : State κ).landedUrls := by
    intro hnone url hu
    rcases landedUrls_of_pick hpick hu with ⟨document, hd, -⟩ | hu
    · rw [hnone] at hd
      cases hd
    · exact hu
  rcases reply with ⟨_, _, _, _ | _⟩ | ⟨_, _, _, _ | _⟩ | ⟨uid, _ | documents⟩ | ⟨uid, _ | documents⟩
  case ordered.some =>
    rw [react_ordered] at h
    obtain ⟨rfl, -⟩ := Prod.mk.inj (Option.some.inj h)
    apply hsound.coherenceInv
    · exact tracks_listing (s := { s with ready := ready }) htimely.1
        fun url hu => (htimely.2 url hu).imp_right (hsame rfl url)
    · intro article ha
      obtain ⟨document, hd, rfl⟩ := List.mem_map.mp ha
      exact Or.inl (List.mem_map.mpr ⟨document, hd, rfl⟩)
  case listed.some =>
    rw [react_listed] at h
    obtain ⟨rfl, -⟩ := Prod.mk.inj (Option.some.inj h)
    apply hsound.coherenceInv
    · exact tracks_listing (s := { s with ready := ready }) htimely.1
        fun url hu => (htimely.2 url hu).imp_right (hsame rfl url)
    · exact fun article ha => (hrestores article ha).imp_right (hsame rfl _)
  all_goals exact hrestores.elim

end Copy

/-! ## What every step keeps -/

/-- The copies of the devices that are up to date track the server. -/
structure Kept {ι κ : Type} (user : ι → User) (w : World ι κ) : Prop where
  account : ∀ i, OneAccount (user i) (w.view i)
  sound : ∀ i, Sound (user i).uid (w.view i)
  inv : ∀ i, (w.devices i).upToDate = true → CoherenceInv (user i) (w.view i)

section Steps

variable {ι κ : Type} {user : ι → User} {w w' : World ι κ} {i j : ι} {a : Action κ} {s : State κ}
  {answers : List (κ × Bool)}

theorem inv_own [Canonical] (hw : Kept user w) (h : (w.view i).act a = some (s, answers))
    (hkept : keepsUp (user i).uid (w.view i) (w.devices i).upToDate a = true) :
    CoherenceInv (user i) s := by
  cases a with
  | call operation => exact coherenceInv_call (hw.account i).signedIn (hw.inv i hkept) h
  | execute k ok => exact coherenceInv_execute (hw.account i) (hw.inv i hkept) h
  | delete uid id => exact coherenceInv_delete (hw.inv i hkept) h
  | deliver k =>
      obtain ⟨reply, ready, hpick, hreact⟩ := act_deliver h
      rw [keepsUp, hpick, Option.map_some, Option.getD_some, Bool.and_eq_true, Bool.or_eq_true,
        decide_eq_true_iff, decide_eq_true_iff] at hkept
      obtain ⟨htimely, hdate | hrestores⟩ := hkept
      · refine coherenceInv_deliver (hw.account i) (hw.inv i hdate) ?_ h
        intro picked hpicked
        rw [hpick] at hpicked
        obtain rfl := Option.some.inj hpicked
        exact htimely
      · exact coherenceInv_restored (sound_step (hw.account i) (hw.sound i) h) hpick htimely
          hrestores hreact

/-- Any other device, while what stands for its account stays the same. -/
theorem inv_foreign (hsound : Sound (user j).uid
      { w.view j with server := s.server, deletes := s.deletes })
    (hinv : CoherenceInv (user j) (w.view j))
    (hsame : s.standingUrls (user j).uid = (w.view i).standingUrls (user j).uid) :
    CoherenceInv (user j) { w.view j with server := s.server, deletes := s.deletes } := by
  refine hsound.coherenceInv ?_ hinv.covered
  have htracks := hinv.tracks
  change Tracks _ {url | url ∈ (w.view i).standingUrls (user j).uid} _ at htracks
  rw [← hsame] at htracks
  exact htracks

theorem sound_foreign [Canonical] (hw : Kept user w) (h : (w.view i).act a = some (s, answers)) :
    Sound (user j).uid { w.view j with server := s.server, deletes := s.deletes } where
  deletesOld := (sound_step (hw.account i) (hw.sound i) h).deletesOld
  replies reply hreply := by
    have hlater : Later w.server s.server := act_later h
    exact ((hw.sound j).replies reply hreply).later hlater

variable [Canonical] [DecidableEq ι]

theorem view_after : (w.after user i a s).view i = s := by
  simp [World.view, World.after]

theorem view_after_of_ne (hne : j ≠ i) : (w.after user i a s).view j =
    { w.view j with server := s.server, deletes := s.deletes } := by
  simp [World.view, World.after, hne]

theorem upToDate_after : ((w.after user i a s).devices i).upToDate =
    keepsUp (user i).uid (w.view i) (w.devices i).upToDate a := by
  simp [World.after]

theorem upToDate_after_of_ne (hne : j ≠ i) : ((w.after user i a s).devices j).upToDate = true ↔
    (w.devices j).upToDate = true ∧
      s.standingUrls (user j).uid = (w.view i).standingUrls (user j).uid := by
  simp [World.after, hne]

theorem kept_step {act : ι × Action κ} (hw : Kept user w)
    (h : (machine user κ).step w act = some w') : Kept user w' := by
  obtain ⟨i, a⟩ := act
  obtain ⟨⟨s, answers⟩, hact, rfl⟩ := Option.map_eq_some_iff.mp h
  have hstep : (SavedStore.machine κ).step (w.view i) a = some s :=
    machine_step_eq_some.mpr ⟨answers, hact⟩
  refine ⟨fun j => ?_, fun j => ?_, fun j hdate => ?_⟩ <;> by_cases hj : j = i
  · subst hj
    rw [view_after]
    exact oneAccount_step (hw.account j) hstep
  · rw [view_after_of_ne hj]
    have haccount := hw.account j
    exact ⟨haccount.signedIn, haccount.requests, haccount.replies⟩
  · subst hj
    rw [view_after]
    exact sound_step (hw.account j) (hw.sound j) hact
  · rw [view_after_of_ne hj]
    exact sound_foreign hw hact
  · subst hj
    rw [upToDate_after] at hdate
    rw [view_after]
    exact inv_own hw hact hdate
  · rw [upToDate_after_of_ne hj] at hdate
    rw [view_after_of_ne hj]
    exact inv_foreign (sound_foreign hw hact) (hw.inv j hdate.1) hdate.2

end Steps

/-! ## Devices of one account agree -/

section Agree

variable {ι κ : Type} {user : ι → User} {w : World ι κ}

theorem stands_of_kept {i : ι} (hw : Kept user w) (hi : Settled w i) (url : String) :
    url ∈ (w.devices i).app.news.savedUrls ↔ url ∈ (w.view i).standingUrls (user i).uid := by
  have htracks := (hw.inv i hi.1).tracks
  have hempty : {url | url ∈ (w.view i).landedUrls} = (∅ : Set String) := by
    ext url
    simp [hi.2]
  rw [hempty] at htracks
  exact Set.ext_iff.mp htracks.settled url

theorem mirrored_of_kept (hw : Kept user w) : Mirrored user w where
  stands i hi := stands_of_kept hw hi
  coherent i hi hdeletes := by
    constructor
    · intro url
      have hstanding : (w.view i).standing (user i).uid = (w.view i).server.saved (user i).uid := by
        apply List.filter_eq_self.mpr
        intro document _
        have hnot : ((user i).uid, document.id) ∉ w.deletes := fun hmem => hdeletes _ hmem rfl
        simpa [World.view] using hnot
      apply Iff.trans (stands_of_kept hw hi url)
      rw [State.standingUrls, hstanding]
    · intro article ha
      rcases (hw.inv i hi.1).covered article ha with hcovered | hlanded
      · exact hcovered
      · rw [hi.2] at hlanded
        cases hlanded
  agree i j hi hj huid url := by
    calc url ∈ (w.devices i).app.news.savedUrls
      _ ↔ url ∈ (w.view i).standingUrls (user i).uid := stands_of_kept hw hi url
      _ ↔ url ∈ (w.view j).standingUrls (user j).uid := by rw [huid]; rfl
      _ ↔ url ∈ (w.devices j).app.news.savedUrls := (stands_of_kept hw hj url).symm

end Agree

/-- One device saves an article, the other one fetches it and unsaves it, and the first one
fetches again just before the delete is executed. -/
def savedHereUnsavedThere : List (Bool × Action Unit) :=
  [(true, .call .updateSavedUrls), (true, .execute 0 true), (true, .deliver 0),
    (true, .call (.saveArticle story ())), (true, .execute 0 true), (true, .deliver 0),
    (false, .call .getSavedNews), (false, .execute 0 true), (false, .deliver 0),
    (false, .call (.unsaveArticle story.key ())), (false, .execute 0 true), (false, .deliver 0),
    (true, .call .getSavedNews), (true, .delete "reader" 0), (true, .execute 0 true),
    (true, .deliver 0)]

end NewsFlash.SavedStore.Devices
