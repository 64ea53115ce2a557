import NewsFlash.Library.InFlight
import NewsFlash.Library.Machine
import NewsFlash.Library.Memo
import NewsFlash.Models.News

/-!
# Images of articles

Five screens show the image of an article in the same way: an image that the cache remembers is
shown at once, any other is fetched, and the answer shows it in the captured image view, whatever
that view is for by then, and puts it into the cache. A table reuses the image views of its cells,
the card stack makes a new one for each card.
-/

namespace NewsFlash.Screens.Images

open NewsFlash.Library NewsFlash.Models

/-! ## Image views -/

inductive Screen where
  | forYou | search | category | saved | flashCards
deriving DecidableEq, Repr

/-- An image of the asset catalog, or one that was served for an address. -/
inductive Image where
  | asset (name : String)
  | loaded (url : String) (content : Nat)
deriving DecidableEq, Repr

def imageSets : List String :=
  ["BrainCarousel", "DownButton", "Flash Image", "Launch Screen Icon", "NewsCarousel",
    "Placeholder Image", "WalkingManCarousel"]

def Image.named (name : String) : Option Image :=
  if name ∈ imageSets then some (.asset name) else none

/-- An image view that shows no article waits to be reused. -/
structure ImageView where
  shown : Option Article := none
  image : Option Image := none
  isHidden : Bool := false
deriving DecidableEq, Repr

/-- A fetch; its closure holds the image view weakly. -/
structure Load where
  view : Nat
  url : String
deriving DecidableEq, Repr

def Served (url : String) : Image → Prop
  | .asset _ => False
  | .loaded origin _ => origin = url

/-- The place of an image view that is gone holds `none`. -/
structure State where
  views : List (Option ImageView) := []
  imageCache : Memo Served := {}
  loads : List Load := []

/-- `bind` is `cellForRowAt` or `viewForCardAt`. An answer without an image runs no closure. -/
inductive Action where
  | bind (article : Article) (reused : Option Nat)
  | scrollOff (v : Nat)
  | release (v : Nat)
  | deliver (i : Nat) (content : Option Nat)
  | evict (kept : String → Bool)
  | didReceiveMemoryWarning

section Screen

/-! `parses` is `URL(string:)`. -/

variable (parses : String → Bool)

def Screen.address (article : Article) : Screen → Option String
  | forYou => article.urlToImage.filter parses
  | search | category | saved | flashCards => (some (article.urlToImage.getD "")).filter parses

def Screen.bound (article : Article) : Screen → ImageView
  | forYou | search | category | saved =>
      { shown := some article, image := Image.named "Palceholder Image", isHidden := false }
  | flashCards => { shown := some article }

def Screen.withoutImage (view : ImageView) : Screen → ImageView
  | forYou | search | category | saved => { view with isHidden := true }
  | flashCards => { view with image := Image.named "Placeholder Image" }

namespace State

/-- The place of the view that is bound; only a cell that waits is reused, and a card never. -/
def place (screen : Screen) (s : State) : Option Nat → Option Nat
  | none => some s.views.length
  | some v => do
      let view ← (← s.views[v]?)
      guard (screen ≠ .flashCards ∧ view.shown = none)
      some v

def put (s : State) (v : Nat) (view : ImageView) : State :=
  { s with views := if v < s.views.length then s.views.set v (some view)
      else s.views ++ [some view] }

def bind (screen : Screen) (article : Article) (s : State) (v : Nat) : State :=
  let view := screen.bound article
  match screen.address parses article with
  | none => s.put v (screen.withoutImage view)
  | some url =>
      match s.imageCache.lookup url with
      | some cachedImage => s.put v { view with image := some cachedImage }
      | none =>
          let s := s.put v view
          { s with loads := s.loads ++ [⟨v, url⟩] }

/-- The closure of `load(url:)` and the completion it was given. -/
def finish (s : State) (load : Load) (content : Nat) : State :=
  { s with
    views := s.views.modify load.view (·.map fun view =>
      { view with image := some (.loaded load.url content) })
    imageCache := s.imageCache.insert load.url (.loaded load.url content) rfl }

def step (screen : Screen) (s : State) : Action → Option State
  | .bind article reused => (s.place screen reused).map (s.bind parses screen article)
  | .scrollOff v => some { s with
      views := s.views.modify v (·.map fun view => { view with shown := none }) }
  | .release v => some { s with views := s.views.modify v fun _ => none }
  | .deliver i content => (pick s.loads i).map fun (load, loads) =>
      match content with
      | none => { s with loads }
      | some content => { s with loads }.finish load content
  | .evict kept => some { s with imageCache := s.imageCache.evict kept }
  | .didReceiveMemoryWarning => some { s with imageCache := .empty }

end State

def machine (screen : Screen) : Machine State Action where
  step := State.step parses screen

end Screen

/-! ## The right image -/

/-- An image of the address, or of the catalog where there is no address. -/
def Image.Of (url : Option String) : Image → Prop
  | asset _ => url = none
  | loaded origin _ => url = some origin

section Right

variable (parses : String → Bool) (screen : Screen)

/-- If the image view is seen, it shows nothing, the image of its article, or, for an article
without one, the placeholder. -/
def ImageView.Right (view : ImageView) : Prop :=
  ∀ article ∈ view.shown, view.isHidden = false →
    ∀ image ∈ view.image, image.Of (screen.address parses article)

def State.Right (s : State) : Prop :=
  ∀ (v : Nat) (view : ImageView), s.views[v]? = some (some view) → view.Right parses screen

/-- An image arrives at a view that still shows the article it was fetched for, that is not seen,
or that is gone. -/
def Fits (s : State) : Action → Prop
  | .deliver i (some _) => ∀ picked ∈ pick s.loads i, ∀ view ∈ s.views[picked.1.view]?.join,
      ∀ article ∈ view.shown, view.isHidden = false →
        screen.address parses article = some picked.1.url
  | _ => True

/-- A view is reused only while nothing is fetched for it. -/
def Careful (s : State) : Action → Prop
  | .bind _ (some v) => ∀ load ∈ s.loads, load.view ≠ v
  | _ => True

/-- What is fetched for a view is the image of the article that it shows. -/
structure Calm (s : State) : Prop where
  right : s.Right parses screen
  inBounds : ∀ load ∈ s.loads, load.view < s.views.length
  current : ∀ load ∈ s.loads, ∀ view : ImageView, s.views[load.view]? = some (some view) →
    ∀ article ∈ view.shown, screen.address parses article = some load.url

end Right

/-! ## What one step does -/

section Steps

variable {parses : String → Bool} {screen : Screen} {s s' : State}

theorem Served.of {url : String} {image : Image} (h : Served url image) :
    image.Of (some url) := by
  cases image with
  | asset name => cases h
  | loaded origin content => exact congrArg some h.symm

theorem place_eq_some {reused : Option Nat} {v : Nat} (h : s.place screen reused = some v) :
    (reused = none ∧ v = s.views.length) ∨
      (reused = some v ∧ v < s.views.length ∧ screen ≠ .flashCards) := by
  cases reused with
  | none => exact Or.inl ⟨rfl, (Option.some.inj h).symm⟩
  | some w =>
      obtain ⟨place, hplace, hview⟩ := Option.bind_eq_some_iff.mp h
      obtain ⟨view, -, hreused⟩ := Option.bind_eq_some_iff.mp hview
      obtain ⟨_, hguard, hv⟩ := Option.bind_eq_some_iff.mp hreused
      obtain rfl := Option.some.inj hv
      obtain ⟨hbounds, -⟩ := List.getElem?_eq_some_iff.mp hplace
      have hscreen : screen ≠ .flashCards ∧ view.shown = none := by
        simpa [guard] using hguard
      exact Or.inr ⟨rfl, hbounds, hscreen.1⟩

theorem place_le {reused : Option Nat} {v : Nat} (h : s.place screen reused = some v) :
    v ≤ s.views.length := by
  rcases place_eq_some h with ⟨-, rfl⟩ | ⟨-, hlt, -⟩
  · exact Nat.le_refl _
  · exact Nat.le_of_lt hlt

theorem getElem?_put {v : Nat} (hv : v ≤ s.views.length) (view : ImageView) (w : Nat) :
    (s.put v view).views[w]? = if w = v then some (some view) else s.views[w]? := by
  unfold State.put
  simp only
  split
  · next hlt =>
      rw [List.getElem?_set]
      by_cases hw : w = v
      · subst hw
        simp only [if_true, hlt]
      · rw [if_neg (Ne.symm hw), if_neg hw]
  · next hge =>
      obtain rfl : v = s.views.length := by omega
      rw [List.getElem?_append]
      rcases Nat.lt_trichotomy w s.views.length with hlt | rfl | hgt
      · rw [if_pos hlt, if_neg (by omega)]
      · rw [if_neg (Nat.lt_irrefl _), if_pos rfl, Nat.sub_self]
        rfl
      · rw [if_neg (by omega), if_neg (by omega), List.getElem?_eq_none (by simp; omega),
          List.getElem?_eq_none (by omega)]

theorem length_put {v : Nat} (hv : v ≤ s.views.length) (view : ImageView) :
    v < (s.put v view).views.length ∧ s.views.length ≤ (s.put v view).views.length := by
  unfold State.put
  simp only
  split
  · next hlt =>
      rw [List.length_set]
      exact ⟨hlt, Nat.le_refl _⟩
  · rw [List.length_append, List.length_singleton]
    omega

/-- What a view shows when it has been bound: its article and nothing wrong. An image is fetched
for it only from the article's address, and is fetched unless it is there. -/
theorem bind_spec (article : Article) (v : Nat) :
    ∃ view : ImageView, ∃ loads : List Load,
      s.bind parses screen article v = { s.put v view with loads := s.loads ++ loads } ∧
        view.shown = some article ∧ view.Right parses screen ∧
        (∀ load ∈ loads, load.view = v ∧ screen.address parses article = some load.url) ∧
        ∀ url ∈ screen.address parses article, view.image.isSome ∨ ⟨v, url⟩ ∈ loads := by
  unfold State.bind
  cases haddress : screen.address parses article with
  | none =>
      refine ⟨screen.withoutImage (screen.bound article), [], ?_, ?_, ?_,
        fun _ hload => absurd hload List.not_mem_nil, fun _ hurl => by cases hurl⟩
      · rw [List.append_nil]
        rfl
      · cases screen <;> rfl
      · -- a table hides the view, a card shows the placeholder
        cases screen with
        | forYou | search | category | saved =>
            intro _ _ hhidden
            cases hhidden
        | flashCards =>
            intro article' harticle' _ image himage
            obtain rfl := Option.some.inj harticle'
            obtain rfl := Option.some.inj himage
            exact haddress
  | some url =>
      simp only
      cases hcached : s.imageCache.lookup url with
      | some cachedImage =>
          refine ⟨{ screen.bound article with image := some cachedImage }, [], ?_, ?_, ?_,
            fun _ hload => absurd hload List.not_mem_nil, fun _ _ => Or.inl rfl⟩
          · rw [List.append_nil]
            rfl
          · cases screen <;> rfl
          · intro article' harticle' _ image himage
            obtain rfl := Option.some.inj himage
            have hshown : article = article' := by
              cases screen <;> exact Option.some.inj harticle'
            rw [← hshown, haddress]
            exact (Memo.serves_of_lookup hcached).of
      | none =>
          refine ⟨screen.bound article, [⟨v, url⟩], rfl, ?_, ?_, ?_, ?_⟩
          · cases screen <;> rfl
          · -- no asset has the name of the tables' placeholder
            intro _ _ _ image himage
            have hnone : (screen.bound article).image = none := by cases screen <;> rfl
            rw [hnone] at himage
            cases himage
          · intro load hload
            obtain rfl := List.mem_singleton.mp hload
            exact ⟨rfl, rfl⟩
          · intro url' hurl'
            obtain rfl := Option.some.inj hurl'
            exact Or.inr (List.mem_singleton_self _)

theorem right_modify {f : Option ImageView → Option ImageView} {v : Nat}
    (hviews : s'.views = s.views.modify v f) (hright : s.Right parses screen)
    (hf : ∀ place, s.views[v]? = some place → ∀ view ∈ f place, view.Right parses screen) :
    s'.Right parses screen := by
  intro w view hview
  rw [hviews, List.getElem?_modify, Option.map_eq_map, Option.map_eq_some_iff] at hview
  obtain ⟨place, hplace, hview⟩ := hview
  by_cases hw : v = w
  · subst hw
    rw [if_pos rfl] at hview
    exact hf place hplace view hview
  · rw [if_neg hw] at hview
    exact hright w view (hview ▸ hplace)

theorem right_bind {article : Article} {reused : Option Nat} (hright : s.Right parses screen)
    (h : (machine parses screen).step s (.bind article reused) = some s') :
    s'.Right parses screen := by
  obtain ⟨v, hplace, rfl⟩ := Option.map_eq_some_iff.mp h
  obtain ⟨bound, loads, hbind, -, hbound, -⟩ := @bind_spec parses screen s article v
  have hv := place_le hplace
  intro w view hview
  rw [hbind] at hview
  change (s.put v bound).views[w]? = _ at hview
  rw [getElem?_put hv] at hview
  split at hview
  · obtain rfl := Option.some.inj (Option.some.inj hview)
    exact hbound
  · exact hright w view hview

theorem right_hides {a : Action} (hbind : ∀ article reused, a ≠ .bind article reused)
    (hdeliver : ∀ i content, a ≠ .deliver i content) (hright : s.Right parses screen)
    (h : (machine parses screen).step s a = some s') : s'.Right parses screen := by
  cases a with
  | bind article reused => exact absurd rfl (hbind article reused)
  | deliver i content => exact absurd rfl (hdeliver i content)
  | scrollOff v =>
      obtain rfl := Option.some.inj h
      refine right_modify rfl hright fun place hplace view hview => ?_
      obtain ⟨old, rfl, rfl⟩ := Option.map_eq_some_iff.mp hview
      intro article harticle
      cases harticle
  | release v =>
      obtain rfl := Option.some.inj h
      exact right_modify rfl hright fun place _ view hview => by cases hview
  | evict kept | didReceiveMemoryWarning =>
      obtain rfl := Option.some.inj h
      exact hright

theorem deliver_eq {i : Nat} {content : Option Nat}
    (h : (machine parses screen).step s (.deliver i content) = some s') :
    ∃ load loads, pick s.loads i = some (load, loads) ∧
      s' = content.elim { s with loads } ({ s with loads }.finish load) := by
  obtain ⟨⟨load, loads⟩, hpick, rfl⟩ := Option.map_eq_some_iff.mp h
  exact ⟨load, loads, hpick, by cases content <;> rfl⟩

theorem right_step {a : Action} (hright : s.Right parses screen)
    (h : (machine parses screen).step s a = some s') :
    s'.Right parses screen ↔ Fits parses screen s a := by
  cases a with
  | bind article reused => exact iff_of_true (right_bind hright h) trivial
  | scrollOff | release | evict | didReceiveMemoryWarning =>
      exact iff_of_true (right_hides (by simp) (by simp) hright h) trivial
  | deliver i content =>
      obtain ⟨load, loads, hpick, rfl⟩ := deliver_eq h
      cases content with
      | none => exact iff_of_true hright trivial
      | some content =>
          simp only [Fits, hpick, Option.mem_some_iff, forall_eq']
          constructor
          · intro hright' view hview article harticle hseen
            refine hright' load.view { view with image := some (.loaded load.url content) }
              ?_ article harticle hseen _ rfl
            change (s.views.modify load.view _)[load.view]? = _
            rw [List.getElem?_modify, Option.join_eq_some_iff.mp hview, Option.map_eq_map,
              Option.map_some, if_pos rfl]
            rfl
          · intro hfits
            refine right_modify rfl hright fun place hplace view hview => ?_
            obtain ⟨old, rfl, rfl⟩ := Option.map_eq_some_iff.mp hview
            intro article harticle hseen image himage
            obtain rfl := Option.some.inj himage
            exact hfits old (Option.join_eq_some_iff.mpr hplace) article harticle hseen

theorem views_length_step {a : Action} (h : (machine parses screen).step s a = some s') :
    s.views.length ≤ s'.views.length := by
  cases a with
  | bind article reused =>
      obtain ⟨v, hplace, rfl⟩ := Option.map_eq_some_iff.mp h
      obtain ⟨bound, loads, hbind, -⟩ := @bind_spec parses screen s article v
      rw [hbind]
      refine (length_put ?_ bound).2
      rcases place_eq_some hplace with ⟨-, rfl⟩ | ⟨-, hlt, -⟩
      · exact Nat.le_refl _
      · exact Nat.le_of_lt hlt
  | deliver i content =>
      obtain ⟨load, loads, -, rfl⟩ := deliver_eq h
      cases content with
      | none => exact Nat.le_refl _
      | some content => exact Nat.le_of_eq (List.length_modify _ _ _).symm
  | scrollOff | release =>
      obtain rfl := Option.some.inj h
      exact Nat.le_of_eq (List.length_modify _ _ _).symm
  | evict | didReceiveMemoryWarning =>
      obtain rfl := Option.some.inj h
      exact Nat.le_refl _

def Keeps (s s' : State) : Prop :=
  ∀ (v : Nat) (view' : ImageView), s'.views[v]? = some (some view') →
    ∃ view : ImageView, s.views[v]? = some (some view) ∧ ∀ article ∈ view'.shown, article ∈ view.shown

theorem keeps_modify {f : Option ImageView → Option ImageView} {v : Nat}
    (hviews : s'.views = s.views.modify v f)
    (hf : ∀ place, ∀ view' ∈ f place, ∃ view ∈ place, ∀ article ∈ view'.shown,
      article ∈ view.shown) : Keeps s s' := by
  intro w view' hview'
  rw [hviews, List.getElem?_modify, Option.map_eq_map, Option.map_eq_some_iff] at hview'
  obtain ⟨place, hplace, hview'⟩ := hview'
  by_cases hw : v = w
  · rw [if_pos hw] at hview'
    obtain ⟨view, hview, hshown⟩ := hf place view' hview'
    exact ⟨view, hplace.trans (congrArg some hview), hshown⟩
  · rw [if_neg hw] at hview'
    exact ⟨view', hplace.trans (congrArg some hview'), fun _ hshown => hshown⟩

theorem keeps_step {a : Action} (hbind : ∀ article reused, a ≠ .bind article reused)
    (h : (machine parses screen).step s a = some s') :
    Keeps s s' ∧ ∀ load ∈ s'.loads, load ∈ s.loads := by
  have hsame : Keeps s s := fun v view hview => ⟨view, hview, fun _ hshown => hshown⟩
  cases a with
  | bind article reused => exact absurd rfl (hbind article reused)
  | deliver i content =>
      obtain ⟨load, loads, hpick, rfl⟩ := deliver_eq h
      cases content with
      | none => exact ⟨hsame, fun _ hload => mem_of_mem_pick hpick hload⟩
      | some content =>
          refine ⟨keeps_modify rfl fun place view' hview' => ?_,
            fun _ hload => mem_of_mem_pick hpick hload⟩
          obtain ⟨view, hview, rfl⟩ := Option.map_eq_some_iff.mp hview'
          exact ⟨view, hview, fun _ hshown => hshown⟩
  | scrollOff v =>
      obtain rfl := Option.some.inj h
      refine ⟨keeps_modify rfl fun place view' hview' => ?_, fun _ hload => hload⟩
      obtain ⟨view, hview, rfl⟩ := Option.map_eq_some_iff.mp hview'
      exact ⟨view, hview, fun _ hshown => by cases hshown⟩
  | release v =>
      obtain rfl := Option.some.inj h
      exact ⟨keeps_modify rfl fun _ _ hview' => (by cases hview'), fun _ hload => hload⟩
  | evict | didReceiveMemoryWarning =>
      obtain rfl := Option.some.inj h
      exact ⟨hsame, fun _ hload => hload⟩

/-- What is fetched for a view fits it, as long as the view is not reused meanwhile. -/
theorem fits_of_calm (hcalm : Calm parses screen s) (a : Action) : Fits parses screen s a := by
  cases a with
  | deliver i content =>
      cases content with
      | none => trivial
      | some content =>
          intro picked hpicked view hview article harticle _
          exact hcalm.current picked.1 (mem_of_pick hpicked) view (Option.join_eq_some_iff.mp hview)
            article harticle
  | bind | scrollOff | release | evict | didReceiveMemoryWarning => trivial

theorem calm_bind {article : Article} {reused : Option Nat} (hcalm : Calm parses screen s)
    (hreuse : screen = .flashCards ∨ Careful s (.bind article reused))
    (h : (machine parses screen).step s (.bind article reused) = some s') :
    Calm parses screen s' := by
  have hright := right_bind hcalm.right h
  have hlength := views_length_step h
  obtain ⟨v, hplace, rfl⟩ := Option.map_eq_some_iff.mp h
  obtain ⟨bound, loads, hbind, hshown, -, hloads, -⟩ :=
    @bind_spec parses screen s article v
  -- the place is a new one, or nothing is fetched for it
  have hfresh : ∀ load ∈ s.loads, load.view ≠ v := by
    rcases place_eq_some hplace with ⟨-, rfl⟩ | ⟨rfl, -, hscreen⟩
    · exact fun load hload => Nat.ne_of_lt (hcalm.inBounds load hload)
    · exact hreuse.resolve_left hscreen
  have hv := place_le hplace
  refine ⟨hright, fun load hload => ?_, fun load hload view hview article' harticle' => ?_⟩
  · rw [hbind] at hload hlength ⊢
    rcases List.mem_append.mp hload with hload | hload
    · exact Nat.lt_of_lt_of_le (hcalm.inBounds load hload) hlength
    · rw [(hloads load hload).1]
      exact (length_put hv bound).1
  · rw [hbind] at hload hview
    change (s.put v bound).views[load.view]? = _ at hview
    rw [getElem?_put hv] at hview
    rcases List.mem_append.mp hload with hload | hload
    · rw [if_neg (hfresh load hload)] at hview
      exact hcalm.current load hload view hview article' harticle'
    · obtain ⟨hview', haddress⟩ := hloads load hload
      rw [if_pos hview'] at hview
      obtain rfl := Option.some.inj (Option.some.inj hview)
      rw [hshown] at harticle'
      obtain rfl := Option.some.inj harticle'
      exact haddress

theorem calm_keeps {a : Action} (hbind : ∀ article reused, a ≠ .bind article reused)
    (hcalm : Calm parses screen s) (h : (machine parses screen).step s a = some s') :
    Calm parses screen s' := by
  obtain ⟨hkeeps, hloads⟩ := keeps_step hbind h
  refine ⟨(right_step hcalm.right h).mpr (fits_of_calm hcalm a), fun load hload => ?_,
    fun load hload view' hview' article harticle => ?_⟩
  · exact Nat.lt_of_lt_of_le (hcalm.inBounds load (hloads load hload)) (views_length_step h)
  · obtain ⟨view, hview, hshown⟩ := hkeeps load.view view' hview'
    exact hcalm.current load (hloads load hload) view hview article (hshown article harticle)

theorem calm_step {a : Action} (hcalm : Calm parses screen s)
    (hreuse : screen = .flashCards ∨ Careful s a)
    (h : (machine parses screen).step s a = some s') : Calm parses screen s' := by
  cases a with
  | bind article reused => exact calm_bind hcalm hreuse h
  | deliver | scrollOff | release | evict | didReceiveMemoryWarning =>
      exact calm_keeps (by simp) hcalm h

end Steps

/-! ## Images are right -/

/-- **Images.** In every run of a screen from the start, over rows bound, cells reused, views
released, images served and refused in any order, evictions and memory warnings: every image view
that is seen shows nothing, the image of its article or, without one, the placeholder, exactly as
long as every image that arrives fits its view. It is enough that no view is reused while an image
is fetched for it, and the card stack, which reuses none, is always right. -/
theorem images_right (parses : String → Bool) (screen : Screen) (as : List Action) :
    ((machine parses screen).Always (State.Right parses screen) {} as ↔
      (machine parses screen).Meets (Fits parses screen) {} as) ∧
    ((machine parses screen).Meets Careful {} as ∨ screen = .flashCards →
      (machine parses screen).Always (State.Right parses screen) {} as) := by
  have hstart : Calm parses screen {} := by
    constructor
    · intro v view hview
      cases hview
    · intro load hload
      cases hload
    · intro load hload
      cases hload
  constructor
  · exact (machine parses screen).always_iff_meets (I := fun _ => True) (fun _ _ _ => trivial)
      (fun _ hright h => right_step hright h) trivial hstart.right
  · rintro (hcareful | hscreen)
    · exact (machine parses screen).always_of_meets
        (fun hcalm hcareful h => calm_step hcalm (Or.inr hcareful) h) Calm.right hstart hcareful
    · exact (machine parses screen).always_of_meets (G := fun _ _ => True)
        (fun hcalm _ h => calm_step hcalm (Or.inl hscreen) h) Calm.right hstart
        ((machine parses screen).meets_of_forall (fun _ _ => trivial) _)

/-! ## Images are complete -/

section Complete

variable {parses : String → Bool} {screen : Screen} {s s' : State}

def Action.isRefusal : Action → Bool
  | deliver _ none => true
  | _ => false

def Arrives (parses : String → Bool) (screen : Screen) (s : State) (a : Action) : Prop :=
  Fits parses screen s a ∧ a.isRefusal = false

instance (s : State) : (a : Action) → Decidable (Fits parses screen s a)
  | .deliver _ (some _) => inferInstanceAs (Decidable (∀ picked ∈ pick _ _, ∀ view ∈ _, _))
  | .deliver _ none | .bind _ _ | .scrollOff _ | .release _ | .evict _ | .didReceiveMemoryWarning =>
      inferInstanceAs (Decidable True)

instance (s : State) (a : Action) : Decidable (Arrives parses screen s a) :=
  inferInstanceAs (Decidable (_ ∧ _))

/-- Once no fetch is left, every view that is seen shows the image of its article, if there is
one. -/
def State.Complete (parses : String → Bool) (screen : Screen) (s : State) : Prop :=
  s.loads = [] → ∀ (v : Nat) (view : ImageView), s.views[v]? = some (some view) →
    ∀ article ∈ view.shown, view.isHidden = false → ∀ url ∈ screen.address parses article,
      ∃ content, view.image = some (.loaded url content)

def State.Pending (parses : String → Bool) (screen : Screen) (s : State) : Prop :=
  ∀ (v : Nat) (view : ImageView), s.views[v]? = some (some view) → ∀ article ∈ view.shown,
    ∀ url ∈ screen.address parses article, view.image.isSome ∨ ⟨v, url⟩ ∈ s.loads

theorem complete_of_pending (hright : s.Right parses screen) (hpending : s.Pending parses screen) :
    s.Complete parses screen := by
  intro hloads v view hview article harticle hseen url hurl
  rcases hpending v view hview article harticle url hurl with himage | hload
  · obtain ⟨image, himage⟩ := Option.isSome_iff_exists.mp himage
    have hof := hright v view hview article harticle hseen image himage
    cases image with
    | asset name =>
        have hnone : none = some url := hof.symm.trans hurl
        cases hnone
    | loaded origin content =>
        obtain rfl := Option.some.inj (hof.symm.trans hurl)
        exact ⟨content, himage⟩
  · rw [hloads] at hload
    cases hload

theorem pending_bind {article : Article} {reused : Option Nat} (hpending : s.Pending parses screen)
    (h : (machine parses screen).step s (.bind article reused) = some s') :
    s'.Pending parses screen := by
  obtain ⟨v, hplace, rfl⟩ := Option.map_eq_some_iff.mp h
  obtain ⟨bound, loads, hbind, hshown, -, -, hfetched⟩ :=
    @bind_spec parses screen s article v
  have hv := place_le hplace
  intro w view hview article' harticle' url hurl
  rw [hbind] at hview ⊢
  change (s.put v bound).views[w]? = _ at hview
  rw [getElem?_put hv] at hview
  split at hview
  · next hw =>
      subst hw
      obtain rfl := Option.some.inj (Option.some.inj hview)
      rw [hshown] at harticle'
      obtain rfl := Option.some.inj harticle'
      exact (hfetched url hurl).imp_right (List.mem_append_right _)
  · exact (hpending w view hview article' harticle' url hurl).imp_right (List.mem_append_left _)

theorem pending_deliver {i content : Nat} (hpending : s.Pending parses screen)
    (h : (machine parses screen).step s (.deliver i (some content)) = some s') :
    s'.Pending parses screen := by
  obtain ⟨load, loads, hpick, rfl⟩ := deliver_eq h
  intro w view' hview' article harticle url hurl
  change (s.views.modify load.view _)[w]? = _ at hview'
  rw [List.getElem?_modify, Option.map_eq_map, Option.map_eq_some_iff] at hview'
  obtain ⟨place, hplace, hview'⟩ := hview'
  by_cases hw : load.view = w
  · rw [if_pos hw] at hview'
    obtain ⟨view, -, rfl⟩ := Option.map_eq_some_iff.mp hview'
    exact Or.inl rfl
  · rw [if_neg hw] at hview'
    refine (hpending w view' (hview' ▸ hplace) article harticle url hurl).imp_right fun hload => ?_
    rcases List.mem_cons.mp ((pick_perm hpick).mem_iff.mp hload) with rfl | hrest
    · exact absurd rfl hw
    · exact hrest

theorem pending_hides {f : Option ImageView → Option ImageView} {v : Nat}
    (hviews : s'.views = s.views.modify v f) (hloads : s'.loads = s.loads)
    (hf : ∀ place, ∀ view ∈ f place, view.shown = none) (hpending : s.Pending parses screen) :
    s'.Pending parses screen := by
  intro w view hview article harticle url hurl
  rw [hviews, List.getElem?_modify, Option.map_eq_map, Option.map_eq_some_iff] at hview
  obtain ⟨place, hplace, hview⟩ := hview
  by_cases hw : v = w
  · rw [if_pos hw] at hview
    rw [hf place view hview] at harticle
    cases harticle
  · rw [if_neg hw] at hview
    rw [hloads]
    exact hpending w view (hview ▸ hplace) article harticle url hurl

theorem pending_step {a : Action} (hpending : s.Pending parses screen)
    (hanswered : a.isRefusal = false) (h : (machine parses screen).step s a = some s') :
    s'.Pending parses screen := by
  cases a with
  | bind article reused => exact pending_bind hpending h
  | deliver i content =>
      cases content with
      | none => cases hanswered
      | some content => exact pending_deliver hpending h
  | scrollOff v =>
      obtain rfl := Option.some.inj h
      refine pending_hides rfl rfl (fun place view hview => ?_) hpending
      obtain ⟨old, -, rfl⟩ := Option.map_eq_some_iff.mp hview
      rfl
  | release v =>
      obtain rfl := Option.some.inj h
      exact pending_hides rfl rfl (fun place view hview => by cases hview) hpending
  | evict | didReceiveMemoryWarning =>
      obtain rfl := Option.some.inj h
      exact hpending

/-- **All images arrive.** In every run from the start in which every fetch that is answered brings
an image that fits its view: whenever no fetch is left, every view that is seen and whose article
has an image shows that image. -/
theorem images_complete {as : List Action}
    (hsteps : (machine parses screen).Meets (Arrives parses screen) {} as) :
    (machine parses screen).Always (State.Complete parses screen) {} as := by
  refine (machine parses screen).always_of_meets
    (I := fun s => s.Right parses screen ∧ s.Pending parses screen)
    (fun hI harrives h => ⟨(right_step hI.1 h).mpr harrives.1, pending_step hI.2 harrives.2 h⟩)
    (fun hI => complete_of_pending hI.1 hI.2) ⟨?_, ?_⟩ hsteps
  · intro v view hview
    cases hview
  · intro v view hview
    cases hview

/-- Two rows with one image are bound before it arrives, and a third one after it. -/
def sharedImage : List Action :=
  let article : Article := { Article.titled "First" with urlToImage := some "flag" }
  [.bind article none, .bind article none, .deliver 1 (some 0), .deliver 0 (some 0), .scrollOff 0,
    .bind article (some 0)]

theorem images_complete_shared :
    (machine (fun _ => true) .category).Always (State.Complete (fun _ => true) .category) {}
      sharedImage := images_complete (by decide +kernel)

end Complete

end NewsFlash.Screens.Images
