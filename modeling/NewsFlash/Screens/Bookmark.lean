import NewsFlash.Library.InFlight
import NewsFlash.Library.Machine
import NewsFlash.Models.Networking

/-!
# The bookmark of a flash card

A tap on the bookmark saves or unsaves the article of the current card, as the card's flag
says at that moment. The completion toggles the flag, whatever it is by then, while the
closure adds the url to the saved ones or takes it away. Meanwhile the articles and the saved
urls may be fetched anew. `Settles` says exactly which steps leave the flag telling the truth,
and `Waits` which order of taps and fetches does.
-/

namespace NewsFlash.Screens.Bookmark

open NewsFlash.Library NewsFlash.Models NewsFlash.Models.Networking

/-! ## The card and its delegate -/

/-- A card with a url, shown at the current index. -/
structure Card where
  app : App
  currentCardIndex : Nat
  url : String
  saved : Bool
  inFlight : List (SavedRequest Unit) := []

/-- What other screens do meanwhile, and what the server answers: for an unsave, with the
documents that its query found. The completion of `getTopNews` assigns the articles before the
cards are reloaded; a memory warning assigns none. -/
inductive Action where
  | toggleSaved
  | deliver (i : Nat) (ok : Bool) (documents : List DocumentId)
  | savedElsewhere (article : Article)
  | unsavedElsewhere (url : String)
  | getTopNews (news : Option (List Article))
  | getSavedNews (documents : Option (List SavedFields))
  | updateSavedUrls (documents : Option (List SavedFields))

namespace FlashCardsViewController

/-- The delegate saves what stands at the current index by then. -/
def saveArticle (index : Nat) : Callback App (SavedRequest Unit) Bool Unit := do
  let article ← Callback.forced (← Callback.read fun app => app.news.topNews[index]?)
  Networking.saveArticle article ()

def unsaveArticle (index : Nat) : Callback App (SavedRequest Unit) Bool Unit := do
  let article ← Callback.forced (← Callback.read fun app => app.news.topNews[index]?)
  Networking.unsaveArticle (article.url.getD "") ()

end FlashCardsViewController

namespace Card

def savedUrls (card : Card) : List String := card.app.news.savedUrls

/-- `viewForCardAt`; the flag of a card without a url keeps its default, and nothing is said
about it. -/
def viewForCardAt (app : App) (index : Nat) : Option Card := do
  let article ← app.news.topNews[index]?
  let url ← article.url
  some { app, currentCardIndex := index, url, saved := app.news.savedUrls.contains url }

/-- Run a closure; the completion toggles the flag on success. The deletes that it issues
have no closure. -/
def react (card : Card) (code : Callback App (SavedRequest Unit) Bool Unit) : Card :=
  let (_, t) := code.exec card.app
  { card with
    app := t.store
    saved := t.completed.foldl (fun saved ok => if ok then !saved else saved) card.saved }

def closure (ok : Bool) (documents : List DocumentId) :
    SavedRequest Unit → Callback App (SavedRequest Unit) Bool Unit
  | .addDocument _ article _ => Networking.saveArticle.onAdded article Callback.complete (!ok)
  | .whereUrl uid url _ => Networking.unsaveArticle.onDocuments uid url Callback.complete
      (if ok then some documents else none)
  | _ => pure ()

def toggleSaved (card : Card) : Option Card :=
  let code := if card.saved then FlashCardsViewController.unsaveArticle card.currentCardIndex
    else FlashCardsViewController.saveArticle card.currentCardIndex
  match code.exec card.app with
  | (none, _) => none
  | (some (), t) => some { card with app := t.store, inFlight := card.inFlight ++ t.issued }

def fetch (card : Card) (code : Callback App (SavedRequest Unit) Bool Unit) : Option Card :=
  match code.exec card.app with
  | (none, _) => none
  | (some (), t) => some { card with app := t.store }

def step (card : Card) : Action → Option Card
  | .toggleSaved => card.toggleSaved
  | .deliver i ok documents => (pick card.inFlight i).map fun (request, rest) =>
      { card with inFlight := rest }.react (closure ok documents request)
  | .savedElsewhere article =>
      if article.key ≠ card.url then
        some (card.react (Networking.saveArticle.onAdded article (fun _ => pure ()) false))
      else none
  | .unsavedElsewhere url =>
      if url ≠ card.url then
        some (card.react
          (Networking.unsaveArticle.onDocuments "" url (fun _ => pure ()) (some [])))
      else none
  | .getTopNews news => card.fetch
      (App.modifyNews fun shared => { shared with topNews := news.getD [] })
  | .getSavedNews documents => card.fetch
      (Networking.getSavedNews.onDocuments (fun data => App.modifyNews fun shared =>
        { shared with savedNews := data.getD [] }) documents)
  | .updateSavedUrls documents => card.fetch (Networking.updateSavedUrls.onDocuments documents)

end Card

def machine : Machine Card Action where
  step := Card.step

/-- The flag says whether the url is saved, once no request of the card is in flight. -/
def Truthful (card : Card) : Prop :=
  card.inFlight = [] → (card.saved = true ↔ card.url ∈ card.savedUrls)

/-- The answer toggles the flag if the url is, or is not, a saved one by then. -/
def Card.SettledBy (card : Card) : SavedRequest Unit → Bool → Prop
  | .addDocument _ article _, true =>
      card.saved = false ↔ card.url ∈ card.savedUrls ∨ card.url = article.key
  | .whereUrl _ url _, true => card.saved = false ↔ card.url ∈ card.savedUrls ∧ card.url ≠ url
  | _, _ => card.saved = true ↔ card.url ∈ card.savedUrls

def Card.ToldBy (card : Card) (documents : Option (List SavedFields)) : Prop :=
  ∀ fetched ∈ documents, card.saved = true ↔ card.url ∈ fetched.filterMap SavedFields.url

/-- The answer to the only request in flight settles the flag, and a fetch with nothing in flight
tells the same. -/
def Settles (card : Card) : Action → Prop
  | .deliver i ok _ => ∀ picked ∈ pick card.inFlight i, picked.2 = [] → card.SettledBy picked.1 ok
  | .getSavedNews documents | .updateSavedUrls documents =>
      card.inFlight = [] → card.ToldBy documents
  | _ => True

/-- A tap waits until the one before has been answered, while the card shows the article of its
index, and a fetch tells what the flag says. -/
def Waits (card : Card) : Action → Prop
  | .toggleSaved => card.inFlight = [] ∧
      ∀ article ∈ card.app.news.topNews[card.currentCardIndex]?, article.url = some card.url
  | .getSavedNews documents | .updateSavedUrls documents => card.ToldBy documents
  | _ => True

instance (card : Card) (documents : Option (List SavedFields)) :
    Decidable (card.ToldBy documents) :=
  inferInstanceAs (Decidable (∀ _ ∈ documents, _ ↔ _))

instance (card : Card) : (a : Action) → Decidable (Waits card a)
  | .toggleSaved => inferInstanceAs (Decidable (_ ∧ _))
  | .getSavedNews documents | .updateSavedUrls documents =>
      inferInstanceAs (Decidable (card.ToldBy documents))
  | .deliver .. | .savedElsewhere _ | .unsavedElsewhere _ | .getTopNews _ =>
      inferInstanceAs (Decidable True)

/-! ## What one step does -/

section Steps

variable {card card' : Card}

theorem toggleSaved_eq (h : card.toggleSaved = some card') :
    ∃ article ∈ card.app.news.topNews[card.currentCardIndex]?, ∃ uid, card' = { card with
      inFlight := card.inFlight ++ [if card.saved then .whereUrl uid article.key ()
        else .addDocument uid article ()] } := by
  obtain ⟨app, index, url, saved, inFlight⟩ := card
  unfold Card.toggleSaved at h
  cases hcurrent : app.news.topNews[index]? with
  | none =>
      cases saved <;> simp [FlashCardsViewController.saveArticle,
        FlashCardsViewController.unsaveArticle, hcurrent] at h
  | some article =>
      cases huser : app.currentUser with
      | none =>
          cases saved <;>
            simp [FlashCardsViewController.saveArticle, FlashCardsViewController.unsaveArticle,
              saveArticle_apply, unsaveArticle_apply, hcurrent, huser] at h
      | some user =>
          refine ⟨article, rfl, user.uid, ?_⟩
          cases saved with
          | true =>
              simp [FlashCardsViewController.unsaveArticle, unsaveArticle_apply, hcurrent,
                huser] at h
              exact h.symm
          | false =>
              simp [FlashCardsViewController.saveArticle, saveArticle_apply, hcurrent,
                huser] at h
              exact h.symm

/-- The step leaves the card and its requests; only the saved urls change. -/
structure Leaves (card card' : Card) : Prop where
  inFlight : card'.inFlight = card.inFlight
  saved : card'.saved = card.saved
  url : card'.url = card.url

/-- An answer toggles the flag on success, when the url has become a saved one or has
ceased to be one. -/
theorem deliver_spec {i : Nat} {ok : Bool} {documents : List DocumentId}
    (h : machine.step card (.deliver i ok documents) = some card') :
    ∃ request rest, pick card.inFlight i = some (request, rest) ∧ card'.inFlight = rest ∧
      card'.url = card.url ∧ match request, ok with
        | .addDocument _ article _, true =>
            card'.saved = !card.saved ∧ card'.savedUrls = card.savedUrls ++ [article.key]
        | .whereUrl _ url _, true => card'.saved = !card.saved ∧
            card'.savedUrls = card.savedUrls.filter fun savedUrl => savedUrl != url
        | _, _ => card'.saved = card.saved ∧ card'.savedUrls = card.savedUrls := by
  obtain ⟨⟨request, rest⟩, hpick, rfl⟩ := Option.map_eq_some_iff.mp h
  refine ⟨request, rest, hpick, ?_⟩
  cases request with
  | addDocument uid article =>
      cases ok <;> exact ⟨rfl, rfl, rfl, rfl⟩
  | whereUrl uid url =>
      cases ok with
      | false => exact ⟨rfl, rfl, rfl, rfl⟩
      | true =>
          simp only [Card.react, Card.closure, if_true, Callback.exec_apply,
            unsaveArticle.onDocuments_decomposed, Callback.complete_apply]
          exact ⟨trivial, trivial, rfl, rfl⟩
  | orderedBySavedAt | getDocuments | delete => cases ok <;> exact ⟨rfl, rfl, rfl, rfl⟩

theorem savedElsewhere_spec {article : Article}
    (h : machine.step card (.savedElsewhere article) = some card') :
    Leaves card card' ∧ (card.url ∈ card'.savedUrls ↔ card.url ∈ card.savedUrls) := by
  obtain ⟨hne, h⟩ := Option.ite_none_right_eq_some.mp h
  obtain rfl := Option.some.inj h
  refine ⟨⟨rfl, rfl, rfl⟩, ?_⟩
  change card.url ∈ card.app.news.savedUrls ++ [article.key] ↔ _
  rw [List.mem_append, List.mem_singleton]
  exact or_iff_left (Ne.symm hne)

theorem unsavedElsewhere_spec {url : String}
    (h : machine.step card (.unsavedElsewhere url) = some card') :
    Leaves card card' ∧ (card.url ∈ card'.savedUrls ↔ card.url ∈ card.savedUrls) := by
  obtain ⟨hne, h⟩ := Option.ite_none_right_eq_some.mp h
  obtain rfl := Option.some.inj h
  refine ⟨⟨rfl, rfl, rfl⟩, ?_⟩
  change card.url ∈ card.app.news.savedUrls.filter (fun savedUrl => savedUrl != url) ↔ _
  rw [List.mem_filter]
  exact and_iff_left (by simpa using Ne.symm hne)

theorem forM_appendSavedUrl_eq {ρ α : Type} {documents : List SavedFields} {t t' : Trace App ρ α}
    (h : (forM documents appendSavedUrl : Callback App ρ α Unit) t = (some (), t')) :
    t'.store.news.savedUrls =
      t.store.news.savedUrls ++ documents.filterMap SavedFields.url := by
  rw [forM_appendSavedUrl_apply, Prod.mk.injEq] at h
  obtain ⟨hends, rfl⟩ := h
  have hall : documents.all (·.url.isSome) = true := by
    by_contra hmissing
    rw [if_neg hmissing] at hends
    cases hends
  rw [List.takeWhile_eq_self_iff.mpr (List.all_eq_true.mp hall)]

theorem getTopNews_spec {news : Option (List Article)}
    (h : machine.step card (.getTopNews news) = some card') :
    Leaves card card' ∧ (card.url ∈ card'.savedUrls ↔ card.url ∈ card.savedUrls) := by
  obtain rfl := Option.some.inj h
  exact ⟨⟨rfl, rfl, rfl⟩, Iff.rfl⟩

theorem fetch_eq {code : Callback App (SavedRequest Unit) Bool Unit}
    (h : card.fetch code = some card') :
    ∃ t, code ⟨card.app, [], []⟩ = (some (), t) ∧ card' = { card with app := t.store } := by
  unfold Card.fetch at h
  rw [Callback.exec_apply] at h
  split at h
  · cases h
  next t hcode => exact ⟨t, hcode, (Option.some.inj h).symm⟩

theorem updateSavedUrls_spec {documents : Option (List SavedFields)}
    (h : machine.step card (.updateSavedUrls documents) = some card') :
    Leaves card card' ∧ card'.savedUrls =
      (documents.map (List.filterMap SavedFields.url)).getD card.savedUrls := by
  obtain ⟨t, hcode, rfl⟩ := fetch_eq h
  refine ⟨⟨rfl, rfl, rfl⟩, ?_⟩
  cases documents with
  | none =>
      obtain ⟨-, rfl⟩ := Prod.mk.inj hcode
      rfl
  | some documents =>
      simp only [updateSavedUrls.onDocuments, App.modifyNews, Callback.bind_apply,
        Callback.write_apply] at hcode
      exact (forM_appendSavedUrl_eq hcode).trans (List.nil_append _)

theorem getSavedNews_spec {documents : Option (List SavedFields)}
    (h : machine.step card (.getSavedNews documents) = some card') :
    Leaves card card' ∧ card'.savedUrls =
      (documents.map (List.filterMap SavedFields.url)).getD card.savedUrls := by
  obtain ⟨t, hcode, rfl⟩ := fetch_eq h
  refine ⟨⟨rfl, rfl, rfl⟩, ?_⟩
  cases documents with
  | none =>
      obtain ⟨-, rfl⟩ := Prod.mk.inj hcode
      rfl
  | some documents =>
      simp only [getSavedNews.onDocuments, App.modifyNews, Callback.bind_apply,
        Callback.write_apply] at hcode
      split at hcode
      next hloop =>
        obtain ⟨-, rfl⟩ := Prod.mk.inj hcode
        exact (forM_appendSavedUrl_eq hloop).trans (List.nil_append _)
      · cases hcode

theorem truthful_of_leaves (hleaves : Leaves card card')
    (hurl : card.url ∈ card'.savedUrls ↔ card.url ∈ card.savedUrls) :
    Truthful card' ↔ Truthful card := by
  rw [Truthful, hleaves.inFlight, hleaves.saved, hleaves.url, hurl, Truthful]

theorem truthful_fetched {documents : Option (List SavedFields)} (htruthful : Truthful card)
    (hleaves : Leaves card card') (hurls : card'.savedUrls =
      (documents.map (List.filterMap SavedFields.url)).getD card.savedUrls) :
    Truthful card' ↔ (card.inFlight = [] → card.ToldBy documents) := by
  rw [Truthful, hleaves.inFlight, hleaves.saved, hleaves.url, hurls]
  refine imp_congr_right fun hidle => ?_
  cases documents with
  | none => exact iff_of_true (htruthful hidle) fun fetched hfetched => by cases hfetched
  | some fetched => simp only [Option.map_some, Option.getD_some, Card.ToldBy, Option.mem_some_iff,
      forall_eq']

theorem truthful_deliver {i : Nat} {ok : Bool} {documents : List DocumentId}
    (h : machine.step card (.deliver i ok documents) = some card') :
    Truthful card' ↔ Settles card (.deliver i ok documents) := by
  obtain ⟨request, rest, hpick, hrest, hurl, hspec⟩ := deliver_spec h
  simp only [Settles, hpick, Option.mem_some_iff, forall_eq', Truthful, hrest, hurl]
  refine imp_congr_right fun _ => ?_
  cases ok with
  | false => cases request <;> rw [hspec.1, hspec.2] <;> rfl
  | true =>
      cases request with
      | addDocument uid article =>
          rw [hspec.1, hspec.2, Bool.not_eq_true', List.mem_append, List.mem_singleton]
          rfl
      | whereUrl uid url =>
          rw [hspec.1, hspec.2, Bool.not_eq_true', List.mem_filter, bne_iff_ne]
          rfl
      | orderedBySavedAt | getDocuments | delete =>
          rw [hspec.1, hspec.2]
          rfl

theorem truthful_step {a : Action} (htruthful : Truthful card)
    (h : machine.step card a = some card') : Truthful card' ↔ Settles card a := by
  cases a with
  | toggleSaved =>
      obtain ⟨article, -, uid, rfl⟩ := toggleSaved_eq h
      refine iff_of_true (fun hidle => ?_) trivial
      exact absurd hidle (List.append_ne_nil_of_right_ne_nil _ (List.cons_ne_nil _ _))
  | deliver i ok documents => exact truthful_deliver h
  | savedElsewhere article =>
      obtain ⟨hleaves, hurl⟩ := savedElsewhere_spec h
      exact iff_of_true ((truthful_of_leaves hleaves hurl).mpr htruthful) trivial
  | unsavedElsewhere url =>
      obtain ⟨hleaves, hurl⟩ := unsavedElsewhere_spec h
      exact iff_of_true ((truthful_of_leaves hleaves hurl).mpr htruthful) trivial
  | getTopNews news =>
      obtain ⟨hleaves, hurl⟩ := getTopNews_spec h
      exact iff_of_true ((truthful_of_leaves hleaves hurl).mpr htruthful) trivial
  | getSavedNews documents =>
      obtain ⟨hleaves, hurls⟩ := getSavedNews_spec h
      exact truthful_fetched htruthful hleaves hurls
  | updateSavedUrls documents =>
      obtain ⟨hleaves, hurls⟩ := updateSavedUrls_spec h
      exact truthful_fetched htruthful hleaves hurls

end Steps

/-! ## Taps that wait -/

/-- With at most one request in flight the flag is right all along, and the request is for
its opposite. -/
structure Patient (card : Card) : Prop where
  truthful : card.saved = true ↔ card.url ∈ card.savedUrls
  single : ∀ request ∈ card.inFlight, card.inFlight = [request] ∧
    if card.saved then ∃ uid, request = .whereUrl uid card.url ()
    else ∃ uid article, request = .addDocument uid article () ∧ article.key = card.url

section Patient

variable {card card' : Card}

theorem patient_toggleSaved (hpatient : Patient card) (hwaits : Waits card .toggleSaved)
    (h : machine.step card .toggleSaved = some card') : Patient card' := by
  obtain ⟨article, harticle, uid, rfl⟩ := toggleSaved_eq h
  obtain ⟨hidle, hcurrent⟩ := hwaits
  have hkey : article.key = card.url := by
    rw [Article.key, hcurrent article harticle, Option.getD_some]
  refine ⟨hpatient.truthful, fun request hrequest => ?_⟩
  simp only [hidle, List.nil_append] at hrequest ⊢
  obtain rfl := List.mem_singleton.mp hrequest
  refine ⟨rfl, ?_⟩
  rw [hkey]
  split
  · exact ⟨uid, rfl⟩
  · exact ⟨uid, article, rfl, hkey⟩

theorem patient_deliver {i : Nat} {ok : Bool} {documents : List DocumentId}
    (hpatient : Patient card) (h : machine.step card (.deliver i ok documents) = some card') :
    Patient card' := by
  obtain ⟨request, rest, hpick, hrest, hurl, hspec⟩ := deliver_spec h
  obtain ⟨hsingle, hrequest⟩ := hpatient.single request (mem_of_pick hpick)
  have hnil : rest = [] := rest_eq_nil hpick hsingle
  have htruthful := hpatient.truthful
  refine ⟨?_, fun r hr => ?_⟩
  · rw [hurl]
    cases hsaved : card.saved with
    | true =>
        rw [hsaved, if_pos rfl] at hrequest
        obtain ⟨uid, rfl⟩ := hrequest
        cases ok <;> simp only at hspec <;> simp [hspec, hsaved, htruthful.mp hsaved]
    | false =>
        have hunsaved : card.url ∉ card.savedUrls := by
          rw [← htruthful, hsaved]
          exact Bool.false_ne_true
        rw [hsaved, if_neg Bool.false_ne_true] at hrequest
        obtain ⟨uid, article, rfl, hkey⟩ := hrequest
        cases ok <;> simp only at hspec <;> simp [hspec, hsaved, hunsaved, hkey]
  · rw [hrest, hnil] at hr
    cases hr

theorem patient_of_leaves (hpatient : Patient card) (hleaves : Leaves card card')
    (hurl : card.saved = true ↔ card.url ∈ card'.savedUrls) : Patient card' := by
  refine ⟨?_, ?_⟩
  · rw [hleaves.saved, hleaves.url]
    exact hurl
  · rw [hleaves.inFlight, hleaves.saved, hleaves.url]
    exact hpatient.single

theorem patient_fetched {documents : Option (List SavedFields)} (hpatient : Patient card)
    (htold : card.ToldBy documents) (hleaves : Leaves card card') (hurls : card'.savedUrls =
      (documents.map (List.filterMap SavedFields.url)).getD card.savedUrls) : Patient card' := by
  refine patient_of_leaves hpatient hleaves ?_
  rw [hurls]
  cases documents with
  | none => exact hpatient.truthful
  | some fetched => exact htold fetched rfl

theorem patient_step {a : Action} (hpatient : Patient card) (hwaits : Waits card a)
    (h : machine.step card a = some card') : Patient card' := by
  cases a with
  | toggleSaved => exact patient_toggleSaved hpatient hwaits h
  | deliver i ok documents => exact patient_deliver hpatient h
  | savedElsewhere article =>
      obtain ⟨hleaves, hurl⟩ := savedElsewhere_spec h
      exact patient_of_leaves hpatient hleaves (hpatient.truthful.trans hurl.symm)
  | unsavedElsewhere url =>
      obtain ⟨hleaves, hurl⟩ := unsavedElsewhere_spec h
      exact patient_of_leaves hpatient hleaves (hpatient.truthful.trans hurl.symm)
  | getTopNews news =>
      obtain ⟨hleaves, hurl⟩ := getTopNews_spec h
      exact patient_of_leaves hpatient hleaves (hpatient.truthful.trans hurl.symm)
  | getSavedNews documents =>
      obtain ⟨hleaves, hurls⟩ := getSavedNews_spec h
      exact patient_fetched hpatient hwaits hleaves hurls
  | updateSavedUrls documents =>
      obtain ⟨hleaves, hurls⟩ := updateSavedUrls_spec h
      exact patient_fetched hpatient hwaits hleaves hurls

end Patient

/-! ## The bookmark tells the truth -/

/-- **Bookmark.** From a new card with a url, however it is tapped, answers arrive, other screens
save other urls, and the articles and the saved urls are fetched anew: with none of its requests
in flight the flag says whether the url is saved, exactly as long as every answer that leaves
nothing in flight, and every fetch with nothing in flight, settles the flag. It is enough that
every tap waits for the answer to the one before and is made while the card shows the article of
its index, and that fetches tell what the flag says. -/
theorem bookmark_truthful {app : App} {index : Nat} {card : Card} {as : List Action}
    (hcard : Card.viewForCardAt app index = some card) :
    (machine.Always Truthful card as ↔ machine.Meets Settles card as) ∧
      (machine.Meets Waits card as → machine.Always Truthful card as) := by
  obtain ⟨article, harticle, hcard⟩ := Option.bind_eq_some_iff.mp hcard
  obtain ⟨url, hurl, hcard⟩ := Option.bind_eq_some_iff.mp hcard
  have hnew : card.inFlight = [] ∧ (card.saved = true ↔ card.url ∈ card.savedUrls) := by
    obtain rfl := Option.some.inj hcard
    exact ⟨rfl, List.contains_iff_mem⟩
  obtain ⟨hidle, htruthful⟩ := hnew
  have hpatient : Patient card := by
    refine ⟨htruthful, fun r hr => ?_⟩
    rw [hidle] at hr
    cases hr
  have htells : ∀ {c}, Patient c → Truthful c := fun hpatient _ => hpatient.truthful
  constructor
  · exact machine.always_iff_meets (I := fun _ => True) (fun _ _ _ => trivial)
      (fun _ htruthful h => truthful_step htruthful h) trivial fun _ => htruthful
  · exact machine.always_of_meets (fun hpatient hwaits h => patient_step hpatient hwaits h) htells
      hpatient

section OneStory

def story : Article := ⟨none, some "Story", none, some "story", none⟩

def signedIn : App := { currentUser := some ⟨"reader", none⟩, news := { topNews := [story] } }

def card : Card := { app := signedIn, currentCardIndex := 0, url := "story", saved := false }

/-- Save the story, fetch it, fail to unsave it, and unsave it. -/
def waitingTaps : List Action :=
  [.toggleSaved, .deliver 0 true [],
    .getSavedNews (some [⟨none, some "Story", none, some "story", none⟩]), .toggleSaved,
    .deliver 0 false [], .getTopNews (some [story]), .toggleSaved, .deliver 0 true [1]]

theorem bookmark_truthful_waitingTaps : machine.Always Truthful card waitingTaps := by
  have hcard : Card.viewForCardAt signedIn 0 = some card := rfl
  have hwaits : machine.Meets Waits card waitingTaps := by decide +kernel
  exact (bookmark_truthful hcard).2 hwaits

/-- The second of two quick taps still finds the card unmarked and saves once more: the two
answers toggle the flag twice. -/
def quickTaps : List Action :=
  [.toggleSaved, .toggleSaved, .deliver 0 true [], .deliver 0 true []]

theorem bookmark_untruthful :
    ¬ ∀ (app : App) (index : Nat) (card : Card) (as : List Action),
      Card.viewForCardAt app index = some card → machine.Always Truthful card as := by
  intro h
  have hends : (machine.run card quickTaps).isSome := by decide +kernel
  have hunmarked : ∀ t ∈ machine.run card quickTaps,
      t.inFlight.isEmpty ∧ t.saved = false ∧ t.url ∈ t.savedUrls := by decide +kernel
  refine machine.not_always_of_run hends (fun t ht htruthful => ?_)
    (h signedIn 0 card quickTaps rfl)
  obtain ⟨hidle, hsaved, hmem⟩ := hunmarked t ht
  have hmarked : t.saved = true := (htruthful (List.isEmpty_iff.mp hidle)).mpr hmem
  rw [hsaved] at hmarked
  cases hmarked

end OneStory

end NewsFlash.Screens.Bookmark
