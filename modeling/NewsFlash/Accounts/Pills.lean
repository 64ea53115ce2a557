import NewsFlash.Accounts.Editors
import NewsFlash.Library.Toggle

/-!
# The pills of the interests

The sign-up and the editor of the interests show the same six pills and toggle an interest
each time its pill is tapped, one in an array that starts empty, the other in an optional array
that starts with what is stored. A pill is styled apart from the array. Without a stored array
the editor has nothing to append to.
-/

namespace NewsFlash.Accounts.Pills

open NewsFlash.Library NewsFlash.Models NewsFlash.Models.Authentication
open NewsFlash.Accounts.CurrentUser (UpdateData)

/-! ## The pills -/

inductive Pill where
  | business | entertainment | health | science | sports | technology
deriving DecidableEq, Repr

def Pill.title : Pill → String
  | business => "Business"
  | entertainment => "Entertainment"
  | health => "Health"
  | science => "Science"
  | sports => "Sports"
  | technology => "Technology"

/-- `titleLabel?.text?.lowercased()` -/
def Pill.interest (pill : Pill) : String := lowercased pill.title

inductive Style where
  | primaryPill | secondaryPill
deriving DecidableEq, Repr

abbrev Styles := Pill → Style

/-! ## The two screens -/

structure SignUpInterestsViewController where
  selectedInterests : List String := []
  styles : Styles

namespace SignUpInterestsViewController

def configureElements : Styles := fun _ => .secondaryPill

def viewDidLoad : SignUpInterestsViewController where
  styles := configureElements

def toggleSelectedPill (s : SignUpInterestsViewController) (button : Pill) :
    SignUpInterestsViewController :=
  if button.interest ∈ s.selectedInterests then
    { styles := Function.update s.styles button .secondaryPill
      -- `remove(at:)` of the first index
      selectedInterests := s.selectedInterests.erase button.interest }
  else
    { styles := Function.update s.styles button .primaryPill
      selectedInterests := s.selectedInterests ++ [button.interest] }

end SignUpInterestsViewController

structure EditUserInterestsViewController where
  interests : Option (List String)
  styles : Styles

namespace EditUserInterestsViewController

def name : Pill → String
  | .business => "business"
  | .entertainment => "entertainment"
  | .health => "health"
  | .science => "science"
  | .sports => "sports"
  | .technology => "technology"

def configureElements (interests : Option (List String)) : Styles := fun pill =>
  if (interests.map fun interests => interests.contains (name pill)).getD false then .primaryPill
  else .secondaryPill

def viewDidLoad (defaults : Defaults) : EditUserInterestsViewController :=
  let interests := Editors.EditUserInterestsViewController.interests defaults
  { interests, styles := configureElements interests }

def toggleInterest (s : EditUserInterestsViewController) (sender : Pill) :
    EditUserInterestsViewController :=
  let interest := sender.interest
  if (s.interests.map fun interests => interests.contains interest).getD false then
    { interests := s.interests.map fun interests => interests.filter (· ≠ interest)
      styles := Function.update s.styles sender .secondaryPill }
  else
    { interests := s.interests.map fun interests => interests ++ [interest]
      styles := Function.update s.styles sender .primaryPill }

end EditUserInterestsViewController

/-! ## A visit of a screen -/

/-- What a visit ends with: the selection, the styles, the stored profile, and the lists that
were sent to the account. -/
structure Visit where
  selection : List String
  styles : Styles
  defaults : Defaults
  sent : List (List String)

inductive Screen where
  | signUp | edit
deriving DecidableEq, Repr

namespace Screen

/-- The selection that a screen starts with; none stored is read as empty. -/
def initial (defaults : Defaults) : Screen → List String
  | signUp => []
  | edit => (Editors.EditUserInterestsViewController.interests defaults).getD []

def sentInterests : AuthRequest → Option (List String)
  | .mergeInterests _ interests => some interests
  | _ => none

/-- A signed-in user taps pills and leaves; the sign-up is left once the service has saved the
interests and the button has expanded. -/
def visit (user : User) (defaults : Defaults) (taps : List Pill) : Screen → Visit
  | signUp =>
      let s := taps.foldl SignUpInterestsViewController.toggleSelectedPill
        SignUpInterestsViewController.viewDidLoad
      let code : Callback App AuthRequest Unit Unit := signUpInterests s.selectedInterests
      let app : App := { currentUser := some user, defaults }
      { selection := s.selectedInterests
        styles := s.styles
        defaults := ((do
          Callback.answered (closure {}) code
          Authentication.SignUpInterestsViewController.onExpanded s.selectedInterests).exec
            app).2.store.defaults
        sent := (code.exec app).2.issued.filterMap sentInterests }
  | edit =>
      let s := taps.foldl EditUserInterestsViewController.toggleInterest
        (EditUserInterestsViewController.viewDidLoad defaults)
      let (_, t) := (CurrentUser.EditUserInterestsViewController.viewDidDisappear s.interests).exec
        { currentUser := some user, defaults }
      { selection := s.interests.getD []
        styles := s.styles
        defaults := t.store.defaults
        sent := t.issued.flatMap fun update => update.fields.filterMap fun field =>
          field.2.asStrings }

end Screen

/-- The selection follows from the taps, and pills, stored list and account follow the
selection. -/
structure Agrees (screen : Screen) (user : User) (defaults : Defaults) (taps : List Pill) :
    Prop where
  nodup : (screen.visit user defaults taps).selection.Nodup
  member : ∀ interest, interest ∈ (screen.visit user defaults taps).selection ↔
    Xor (interest ∈ screen.initial defaults) (Odd (taps.countP (·.interest = interest)))
  styled : ∀ pill, (screen.visit user defaults taps).styles pill = .primaryPill ↔
    pill.interest ∈ (screen.visit user defaults taps).selection
  stored : (Editors.EditUserInterestsViewController.interests
    (screen.visit user defaults taps).defaults).getD [] = (screen.visit user defaults taps).selection
  sent : ∀ interests ∈ (screen.visit user defaults taps).sent,
    interests = (screen.visit user defaults taps).selection

/-- There is an array to toggle interests in, or no interest is toggled. -/
def Toggles (screen : Screen) (defaults : Defaults) (taps : List Pill) : Prop :=
  screen = .edit →
    (Editors.EditUserInterestsViewController.interests defaults).isSome ∨ taps = []

/-! ## Selection and styles -/

theorem interest_injective : Function.Injective Pill.interest := by
  intro a b h
  cases a <;> cases b <;> first | rfl | exact absurd h (by decide)

theorem name_eq (pill : Pill) : EditUserInterestsViewController.name pill = pill.interest := by
  cases pill <;> decide

/-- The pills of the selected interests, and only those, are primary. -/
def Styled (styles : Styles) (selection : List String) : Prop :=
  ∀ pill, styles pill = .primaryPill ↔ pill.interest ∈ selection

section Taps

variable {styles : Styles} {selection : List String} {taps : List Pill}

def tapped (selection : List String) (pill : Pill) : Style :=
  if pill.interest ∈ selection then .secondaryPill else .primaryPill

theorem styled_tap (h : Styled styles selection) (pill : Pill) :
    Styled (Function.update styles pill (tapped selection pill))
      (toggle selection pill.interest) := by
  intro other
  rw [mem_toggle, Function.update_apply]
  by_cases hother : other = pill
  · rw [if_pos hother, hother, tapped]
    split <;> simp [Xor, *]
  · have hinterest : other.interest ≠ pill.interest := fun heq =>
      hother (interest_injective heq)
    rw [if_neg hother, h other]
    simp [Xor, hinterest]

theorem toggleSelectedPill_eq (hnodup : selection.Nodup) (pill : Pill) :
    SignUpInterestsViewController.toggleSelectedPill ⟨selection, styles⟩ pill =
      ⟨toggle selection pill.interest,
        Function.update styles pill (tapped selection pill)⟩ := by
  rw [← toggleFirst_eq hnodup]
  unfold SignUpInterestsViewController.toggleSelectedPill toggleFirst tapped
  split <;> rfl

theorem toggleInterest_some (pill : Pill) :
    EditUserInterestsViewController.toggleInterest ⟨some selection, styles⟩ pill =
      ⟨some (toggle selection pill.interest),
        Function.update styles pill (tapped selection pill)⟩ := by
  unfold EditUserInterestsViewController.toggleInterest toggle tapped
  by_cases hmem : pill.interest ∈ selection <;> simp [hmem]

theorem toggleInterest_none (pill : Pill) :
    EditUserInterestsViewController.toggleInterest ⟨none, styles⟩ pill =
      ⟨none, Function.update styles pill .primaryPill⟩ := rfl

theorem foldl_toggleSelectedPill (hnodup : selection.Nodup) (styles : Styles)
    (taps : List Pill) :
    ∃ styles', taps.foldl SignUpInterestsViewController.toggleSelectedPill ⟨selection, styles⟩ =
        ⟨(taps.map Pill.interest).foldl toggle selection, styles'⟩ ∧
      (Styled styles selection →
        Styled styles' ((taps.map Pill.interest).foldl toggle selection)) := by
  induction taps generalizing selection styles with
  | nil => exact ⟨styles, rfl, id⟩
  | cons pill taps ih =>
      rw [List.foldl_cons, toggleSelectedPill_eq hnodup]
      obtain ⟨styles', htaps, hstyled⟩ :=
        ih (nodup_toggle hnodup) (Function.update styles pill (tapped selection pill))
      exact ⟨styles', htaps, fun h => hstyled (styled_tap h pill)⟩

theorem foldl_toggleInterest_some (selection : List String) (styles : Styles)
    (taps : List Pill) :
    ∃ styles', taps.foldl EditUserInterestsViewController.toggleInterest
        ⟨some selection, styles⟩ =
        ⟨some ((taps.map Pill.interest).foldl toggle selection), styles'⟩ ∧
      (Styled styles selection →
        Styled styles' ((taps.map Pill.interest).foldl toggle selection)) := by
  induction taps generalizing selection styles with
  | nil => exact ⟨styles, rfl, id⟩
  | cons pill taps ih =>
      rw [List.foldl_cons, toggleInterest_some]
      obtain ⟨styles', htaps, hstyled⟩ := ih (toggle selection pill.interest)
        (Function.update styles pill (tapped selection pill))
      exact ⟨styles', htaps, fun h => hstyled (styled_tap h pill)⟩

theorem foldl_toggleInterest_none (styles : Styles) (taps : List Pill) :
    ∃ styles', taps.foldl EditUserInterestsViewController.toggleInterest ⟨none, styles⟩ =
        ⟨none, styles'⟩ ∧
      ∀ pill, styles' pill = .primaryPill ↔ styles pill = .primaryPill ∨ pill ∈ taps := by
  induction taps generalizing styles with
  | nil => exact ⟨styles, rfl, fun pill => by simp⟩
  | cons tap taps ih =>
      obtain ⟨styles', htaps, hprimary⟩ := ih (Function.update styles tap .primaryPill)
      refine ⟨styles', by rw [List.foldl_cons, toggleInterest_none, htaps], fun pill => ?_⟩
      rw [hprimary, Function.update_apply, List.mem_cons]
      by_cases htap : pill = tap <;> simp [htap]

end Taps

/-! ## What a visit ends with -/

section Visits

variable {user : User} {defaults : Defaults} {taps : List Pill}

theorem visit_signUp (user : User) (defaults : Defaults) (taps : List Pill) :
    ∃ styles, Screen.signUp.visit user defaults taps = {
        selection := (taps.map Pill.interest).foldl toggle []
        styles
        defaults := UserRepository.store .interests
          (.strings ((taps.map Pill.interest).foldl toggle [])) defaults
        sent := [(taps.map Pill.interest).foldl toggle []] } ∧
      Styled styles ((taps.map Pill.interest).foldl toggle []) := by
  have hstyled : Styled SignUpInterestsViewController.configureElements [] := fun pill =>
    iff_of_false (by simp [SignUpInterestsViewController.configureElements]) (by simp)
  obtain ⟨styles, htaps, hstyles⟩ := foldl_toggleSelectedPill List.nodup_nil
    SignUpInterestsViewController.configureElements taps
  refine ⟨styles, ?_, hstyles hstyled⟩
  unfold Screen.visit SignUpInterestsViewController.viewDidLoad
  rw [htaps]
  rfl

theorem visit_edit_some {stored : List String}
    (hstored : Editors.EditUserInterestsViewController.interests defaults = some stored)
    (user : User) (taps : List Pill) :
    ∃ styles, Screen.edit.visit user defaults taps = {
        selection := (taps.map Pill.interest).foldl toggle stored
        styles
        defaults := UserRepository.store .interests
          (.strings ((taps.map Pill.interest).foldl toggle stored)) defaults
        sent := [(taps.map Pill.interest).foldl toggle stored] } ∧
      Styled styles ((taps.map Pill.interest).foldl toggle stored) := by
  have hstyled :
      Styled (EditUserInterestsViewController.configureElements (some stored)) stored := by
    intro pill
    unfold EditUserInterestsViewController.configureElements
    rw [name_eq]
    by_cases hmem : pill.interest ∈ stored <;> simp [hmem]
  obtain ⟨styles, htaps, hstyles⟩ := foldl_toggleInterest_some stored
    (EditUserInterestsViewController.configureElements (some stored)) taps
  refine ⟨styles, ?_, hstyles hstyled⟩
  unfold Screen.visit EditUserInterestsViewController.viewDidLoad
  rw [hstored, htaps]
  rfl

theorem visit_edit_none
    (hstored : Editors.EditUserInterestsViewController.interests defaults = none)
    (user : User) (taps : List Pill) :
    ∃ styles, Screen.edit.visit user defaults taps =
        { selection := [], styles, defaults, sent := [] } ∧
      ∀ pill, styles pill = .primaryPill ↔ pill ∈ taps := by
  obtain ⟨styles, htaps, hstyles⟩ := foldl_toggleInterest_none
    (EditUserInterestsViewController.configureElements none) taps
  refine ⟨styles, ?_, fun pill => (hstyles pill).trans (or_iff_right ?_)⟩
  swap
  · exact Style.noConfusion
  unfold Screen.visit EditUserInterestsViewController.viewDidLoad
  rw [hstored, htaps]
  rfl

theorem agrees_of_toggle {screen : Screen} {styles : Styles}
    (hnodup : (screen.initial defaults).Nodup)
    (hvisit : screen.visit user defaults taps = {
      selection := (taps.map Pill.interest).foldl toggle (screen.initial defaults)
      styles
      defaults := UserRepository.store .interests
        (.strings ((taps.map Pill.interest).foldl toggle (screen.initial defaults))) defaults
      sent := [(taps.map Pill.interest).foldl toggle (screen.initial defaults)] })
    (hstyled : Styled styles
      ((taps.map Pill.interest).foldl toggle (screen.initial defaults))) :
    Agrees screen user defaults taps := by
  constructor
  case nodup =>
    rw [hvisit]
    exact nodup_foldl_toggle hnodup _
  case member =>
    intro interest
    have hcount : (taps.map Pill.interest).count interest =
        taps.countP (·.interest = interest) := by
      rw [List.count, List.countP_map]
      rfl
    rw [hvisit, mem_foldl_toggle, hcount]
  case styled =>
    rw [hvisit]
    exact hstyled
  case stored =>
    rw [hvisit]
    rfl
  case sent =>
    rw [hvisit]
    exact fun interests hmem => List.mem_singleton.mp hmem

theorem agrees_edit_none
    (hstored : Editors.EditUserInterestsViewController.interests defaults = none) :
    Agrees .edit user defaults taps ↔ taps = [] := by
  obtain ⟨styles, hvisit, hstyles⟩ := visit_edit_none hstored user taps
  constructor
  · intro hagrees
    rw [List.eq_nil_iff_forall_not_mem]
    intro pill hmem
    have hstyled := hagrees.styled pill
    rw [hvisit, hstyles] at hstyled
    exact List.not_mem_nil (hstyled.mp hmem)
  · rintro rfl
    have hinitial : Screen.edit.initial defaults = [] := by
      rw [Screen.initial, hstored, Option.getD_none]
    constructor
    case nodup =>
      rw [hvisit]
      exact List.nodup_nil
    case member =>
      intro interest
      rw [hvisit, hinitial]
      simp [Xor]
    case styled =>
      intro pill
      rw [hvisit, hstyles]
      simp
    case stored =>
      rw [hvisit, hstored, Option.getD_none]
    case sent =>
      rw [hvisit]
      exact fun interests hmem => absurd hmem List.not_mem_nil

/-- Only the editor without a stored list disagrees, and only once a pill is tapped. -/
theorem agrees_iff {screen : Screen} (hnodup : (screen.initial defaults).Nodup) :
    Agrees screen user defaults taps ↔ Toggles screen defaults taps := by
  cases screen with
  | signUp =>
      obtain ⟨styles, hvisit, hstyled⟩ := visit_signUp user defaults taps
      exact iff_of_true (agrees_of_toggle hnodup hvisit hstyled) Screen.noConfusion
  | edit =>
      unfold Toggles
      cases hstored : Editors.EditUserInterestsViewController.interests defaults with
      | some stored =>
          obtain ⟨styles, hvisit, hstyled⟩ := visit_edit_some hstored user taps
          have hinitial : Screen.edit.initial defaults = stored := by
            rw [Screen.initial, hstored, Option.getD_some]
          rw [← hinitial] at hvisit hstyled
          exact iff_of_true (agrees_of_toggle hnodup hvisit hstyled) fun _ => Or.inl rfl
      | none =>
          rw [agrees_edit_none hstored]
          exact ⟨fun htaps _ => Or.inr htaps,
            fun htoggles => (htoggles rfl).resolve_left Bool.false_ne_true⟩

end Visits

/-! ## Both screens select the same -/

theorem selections_eq {start : List String} (hstart : start.Nodup) (styles styles' : Styles)
    (taps : List Pill) :
    some (taps.foldl SignUpInterestsViewController.toggleSelectedPill
        ⟨start, styles⟩).selectedInterests =
      (taps.foldl EditUserInterestsViewController.toggleInterest
        ⟨some start, styles'⟩).interests := by
  obtain ⟨_, hsignUp, -⟩ := foldl_toggleSelectedPill hstart styles taps
  obtain ⟨_, hedit, -⟩ := foldl_toggleInterest_some start styles' taps
  rw [hsignUp, hedit]

/-- **Pills.** From a start without duplicates, every visit of either screen agrees with its
taps exactly where the screen has an array to toggle interests in or nothing is tapped; and
both screens select the same interests wherever they have an array with the same start. -/
theorem pills_agree (screen : Screen) (user : User) (defaults : Defaults) (taps : List Pill)
    (styles styles' : Styles) {start : List String} (hnodup : (screen.initial defaults).Nodup)
    (hstart : start.Nodup) :
    (Agrees screen user defaults taps ↔ Toggles screen defaults taps) ∧
      some (taps.foldl SignUpInterestsViewController.toggleSelectedPill
          ⟨start, styles⟩).selectedInterests =
        (taps.foldl EditUserInterestsViewController.toggleInterest
          ⟨some start, styles'⟩).interests :=
  ⟨agrees_iff hnodup, selections_eq hstart styles styles' taps⟩

def sportsFan : Defaults := UserRepository.store .interests (.strings ["sports"]) fun _ => none

def swapInterests : List Pill := [.health, .sports, .science, .science]

theorem pills_agree_sportsFan :
    Agrees .edit ⟨"ada", none⟩ sportsFan swapInterests ∧
      some (swapInterests.foldl SignUpInterestsViewController.toggleSelectedPill
          ⟨[], SignUpInterestsViewController.configureElements⟩).selectedInterests =
        (swapInterests.foldl EditUserInterestsViewController.toggleInterest
          ⟨some [], EditUserInterestsViewController.configureElements (some [])⟩).interests := by
  have hnodup : (Screen.edit.initial sportsFan).Nodup := List.nodup_singleton _
  obtain ⟨hagrees, hsame⟩ := pills_agree .edit ⟨"ada", none⟩ sportsFan swapInterests
    SignUpInterestsViewController.configureElements
    (EditUserInterestsViewController.configureElements (some [])) hnodup List.nodup_nil
  exact ⟨hagrees.mpr fun _ => Or.inl rfl, hsame⟩

/-- The first interest of a user without any is not selected. -/
theorem pill_ignored :
    ¬ ∀ (screen : Screen) (user : User) (defaults : Defaults) (taps : List Pill),
      (screen.initial defaults).Nodup → Agrees screen user defaults taps := by
  intro h
  have hnodup : (Screen.edit.initial fun _ => none).Nodup := List.nodup_nil
  have hagrees := h .edit ⟨"ada", none⟩ (fun _ => none) [.health] hnodup
  rcases (agrees_iff hnodup).mp hagrees rfl with hstored | htaps
  · cases hstored
  · cases htaps

end NewsFlash.Accounts.Pills
