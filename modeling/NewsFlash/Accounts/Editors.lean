import Mathlib.Data.List.Permutation
import Mathlib.Logic.Function.Basic
import NewsFlash.Accounts.CurrentUser
import NewsFlash.Models.Constants
import NewsFlash.Models.Text

/-!
# Opening and closing the settings

Three screens decode the stored profile into their controls when they are opened and write
what the controls say when they are closed. Nothing is edited here. `Encoded` says exactly
which profiles and documents the screens leave as they were, up to the order in which a dictionary
is written down.
-/

namespace NewsFlash.Accounts.Editors

open NewsFlash.Models NewsFlash.Models.Networking NewsFlash.Models.Authentication
open NewsFlash.Accounts.CurrentUser (UpdateData)

/-! ## The screens -/

def country (row : Nat) : Country :=
  [("short", Constants.Countries.short.getD row ""),
    ("full", Constants.Countries.full.getD row "")]

/-- The controls of the details; a field whose text is set to `nil` has the empty text. -/
structure EditUserDetailsViewController where
  firstNameTextField : String
  lastNameTextField : String
  emailTextField : String
  countryPickerView : Nat

namespace EditUserDetailsViewController

def text (key : Key) (defaults : Defaults) : String :=
  ((UserRepository.fetch key defaults).bind Value.asString).getD ""

def selectedRow (defaults : Defaults) : Nat :=
  match (UserRepository.fetch .country defaults).bind Value.asDictionary with
  | some countryName =>
      let countryCode := (short countryName).getD ""
      (Constants.Countries.short.idxOf? countryCode).getD 0
  | none => 0

def configureElements (defaults : Defaults) : EditUserDetailsViewController where
  firstNameTextField := text .firstname defaults
  lastNameTextField := text .lastname defaults
  emailTextField := text .email defaults
  countryPickerView := selectedRow defaults

def viewDidDisappear (screen : EditUserDetailsViewController) :
    Library.Callback App UpdateData Unit Unit :=
  CurrentUser.EditUserDetailsViewController.viewDidDisappear
    (trimmingCharacters screen.firstNameTextField) (trimmingCharacters screen.lastNameTextField)
    (country screen.countryPickerView)

end EditUserDetailsViewController

namespace AppSettingsViewController

def isCountrySpecific (defaults : Defaults) : Bool :=
  ((UserRepository.fetch .isCountrySpecific defaults).bind Value.asBool).getD false

def languageIndex (defaults : Defaults) : Nat :=
  let language := ((UserRepository.fetch .resultLanguage defaults).bind Value.asString).getD ""
  (Constants.Languages.short.idxOf? language).getD 0

end AppSettingsViewController

def EditUserInterestsViewController.interests (defaults : Defaults) : Option (List String) :=
  (UserRepository.fetch .interests defaults).bind Value.asStrings

/-! ## What is kept of a user -/

structure Kept where
  defaults : Defaults
  documents : Uid → Option UserDocument

def setField (document : UserDocument) : Key × Value → UserDocument
  | (.firstname, value) => { document with firstname := some value }
  | (.lastname, value) => { document with lastname := some value }
  | (.country, value) => { document with country := some value }
  | (.interests, value) => { document with interests := some value }
  | _ => document

/-- `updateData` fails where there is no document. -/
def updateData (documents : Uid → Option UserDocument) (update : UpdateData) :
    Uid → Option UserDocument :=
  Function.update documents update.uid
    ((documents update.uid).map fun document => update.fields.foldl setField document)

inductive Editor where
  | details | interests | settings
deriving DecidableEq, Repr

/-- The editor is opened and closed again; its controls stay as they were configured. -/
def Editor.code (defaults : Defaults) : Editor → Library.Callback App UpdateData Unit Unit
  | details => (EditUserDetailsViewController.configureElements defaults).viewDidDisappear
  | interests => CurrentUser.EditUserInterestsViewController.viewDidDisappear
      (EditUserInterestsViewController.interests defaults)
  | settings => CurrentUser.AppSettingsViewController.viewDidDisappear
      (AppSettingsViewController.isCountrySpecific defaults)
      (Constants.Languages.short.getD (AppSettingsViewController.languageIndex defaults) "")

/-- What is left once a signed-in user has looked; `none` is a trap. -/
def Editor.look (editor : Editor) (user : User) (kept : Kept) : Option Kept :=
  match (editor.code kept.defaults).exec
      { currentUser := some user, defaults := kept.defaults } with
  | (none, _) => none
  | (some (), t) => some {
      defaults := t.store.defaults
      documents := t.issued.foldl updateData kept.documents }

/-! ## Values that are the same -/

/-- The entries of a dictionary have no order. -/
inductive SameValue : Value → Value → Prop
  | refl (value : Value) : SameValue value value
  | dictionary {entries entries' : List (String × String)} (h : entries.Perm entries') :
      SameValue (.dictionary entries) (.dictionary entries')

abbrev SameField : Option Value → Option Value → Prop := Option.Rel SameValue

structure SameDocument (document document' : UserDocument) : Prop where
  firstname : SameField document.firstname document'.firstname
  lastname : SameField document.lastname document'.lastname
  country : SameField document.country document'.country
  interests : SameField document.interests document'.interests

structure Kept.Same (kept kept' : Kept) : Prop where
  defaults : ∀ key, SameField (kept.defaults key) (kept'.defaults key)
  documents : ∀ uid, Option.Rel SameDocument (kept.documents uid) (kept'.documents uid)

/-! ## Which profiles are decoded and encoded to themselves -/

/-- Names are trimmed and not empty, the country and the language are from the tables. -/
structure Tabled (defaults : Defaults) : Prop where
  firstname : ∀ value ∈ defaults .firstname,
    ∃ name, value = .string name ∧ trimmingCharacters name = name ∧ name ≠ ""
  lastname : ∀ value ∈ defaults .lastname,
    ∃ name, value = .string name ∧ trimmingCharacters name = name ∧ name ≠ ""
  country : ∀ value ∈ defaults .country,
    ∃ row < Constants.Countries.short.length, SameValue value (.dictionary (country row))
  resultLanguage : ∀ value ∈ defaults .resultLanguage,
    ∃ code ∈ Constants.Languages.short, value = .string code

/-- The document has what is stored under the key, if anything is. -/
def Agrees (defaults : Defaults) (key : Key) (field : Option Value) : Prop :=
  ∀ value ∈ defaults key, SameField field (some value)

def Encoded (user : User) (kept : Kept) : Editor → Prop
  | .details => (kept.defaults .country).isSome ∧
      ∀ document ∈ kept.documents user.uid,
        Agrees kept.defaults .firstname document.firstname ∧
        Agrees kept.defaults .lastname document.lastname ∧
        Agrees kept.defaults .country document.country
  | .interests => ∀ interests, kept.defaults .interests = some (.strings interests) →
      ∀ document ∈ kept.documents user.uid, document.interests = some (.strings interests)
  | .settings => (∃ isCountrySpecific,
        kept.defaults .isCountrySpecific = some (.bool isCountrySpecific)) ∧
      (kept.defaults .resultLanguage).isSome

/-! ## What each screen writes -/

section Looks

variable {user : User} {kept : Kept} {defaults : Defaults}

theorem SameValue.symm {value value' : Value} (h : SameValue value value') :
    SameValue value' value := by
  cases h with
  | refl => exact .refl _
  | dictionary hperm => exact .dictionary hperm.symm

theorem SameValue.trans {value value' value'' : Value} (h : SameValue value value')
    (h' : SameValue value' value'') : SameValue value value'' := by
  cases h with
  | refl => exact h'
  | dictionary hperm =>
      cases h' with
      | refl => exact .dictionary hperm
      | dictionary hperm' => exact .dictionary (hperm.trans hperm')

theorem sameField_refl (field : Option Value) : SameField field field := by
  cases field with
  | none => exact .none
  | some value => exact .some (.refl value)

theorem sameField_some {field : Option Value} {value : Value} :
    SameField field (some value) ↔ ∃ value' ∈ field, SameValue value' value := by
  cases field <;> simp [SameField]

/-- Only dictionaries are written down in more than one way. -/
theorem sameField_iff_eq {field : Option Value} {value : Value}
    (hvalue : value.asDictionary = none) : SameField field (some value) ↔ field = some value := by
  rw [sameField_some]
  constructor
  · rintro ⟨value', rfl, hsame⟩
    cases hsame with
    | refl => rfl
    | dictionary => cases hvalue
  · rintro rfl
    exact ⟨value, rfl, .refl value⟩

theorem sameDocument_refl (document : UserDocument) : SameDocument document document :=
  ⟨sameField_refl _, sameField_refl _, sameField_refl _, sameField_refl _⟩

theorem sameDocuments_refl (documents : Uid → Option UserDocument) (uid : Uid) :
    Option.Rel SameDocument (documents uid) (documents uid) := by
  cases documents uid with
  | none => exact .none
  | some document => exact .some (sameDocument_refl document)

theorem store_same {key : Key} {value : Value} :
    (∀ key', SameField (defaults key') (UserRepository.store key value defaults key')) ↔
      SameField (defaults key) (some value) := by
  constructor
  · intro h
    have hkey := h key
    rwa [UserRepository.store, if_pos rfl] at hkey
  · intro h key'
    rw [UserRepository.store]
    split
    · next heq => rwa [heq]
    · exact sameField_refl _

theorem updateData_same {documents : Uid → Option UserDocument} (update : UpdateData) :
    (∀ uid, Option.Rel SameDocument (documents uid) (updateData documents update uid)) ↔
      ∀ document ∈ documents update.uid,
        SameDocument document (update.fields.foldl setField document) := by
  constructor
  · intro h document hdocument
    have huid := h update.uid
    rw [updateData, Function.update_self, Option.mem_def.mp hdocument] at huid
    simpa using huid
  · intro h uid
    rw [updateData, Function.update_apply]
    split
    · next heq =>
        rw [heq]
        cases hdocument : documents update.uid with
        | none => exact .none
        | some document => exact .some (h document hdocument)
    · exact sameDocuments_refl documents uid

theorem same_iff {fields : List (Key × Value)} {key : Key} {value : Value} :
    (∃ kept' ∈ some { defaults := UserRepository.store key value kept.defaults
                      documents := updateData kept.documents ⟨user.uid, fields⟩ },
      kept.Same kept') ↔
    SameField (kept.defaults key) (some value) ∧ ∀ document ∈ kept.documents user.uid,
      SameDocument document (fields.foldl setField document) := by
  rw [← store_same, ← updateData_same ⟨user.uid, fields⟩]
  constructor
  · rintro ⟨kept', hkept, hsame⟩
    obtain rfl := Option.some.inj hkept
    exact ⟨hsame.defaults, hsame.documents⟩
  · rintro ⟨hdefaults, hdocuments⟩
    exact ⟨_, rfl, hdefaults, hdocuments⟩

theorem text_eq {key : Key} (h : ∀ value ∈ defaults key,
    ∃ name, value = .string name ∧ trimmingCharacters name = name ∧ name ≠ "") :
    (defaults key = none ∧
        trimmingCharacters (EditUserDetailsViewController.text key defaults) = "") ∨
      ∃ name, defaults key = some (.string name) ∧ name ≠ "" ∧
        trimmingCharacters (EditUserDetailsViewController.text key defaults) = name := by
  unfold EditUserDetailsViewController.text UserRepository.fetch
  cases hstored : defaults key with
  | none => exact Or.inl ⟨rfl, by decide⟩
  | some value =>
      obtain ⟨name, rfl, htrimmed, hname⟩ := h value hstored
      exact Or.inr ⟨name, rfl, hname, htrimmed⟩

theorem idxOf?_country : ∀ row < Constants.Countries.short.length,
    Constants.Countries.short.idxOf? (Constants.Countries.short.getD row "") = some row := by
  decide +kernel

theorem short_of_perm {entries : Country} {row : Nat} (h : entries.Perm (country row)) :
    short entries = some (Constants.Countries.short.getD row "") := by
  rcases List.perm_pair.mp h with rfl | rfl <;> rfl

theorem country_selectedRow {value : Value} (h : defaults .country = some value)
    (htable : ∃ row < Constants.Countries.short.length,
      SameValue value (.dictionary (country row))) :
    SameValue value
      (.dictionary (country (EditUserDetailsViewController.selectedRow defaults))) := by
  obtain ⟨row, hrow, hsame⟩ := htable
  obtain ⟨entries, rfl, hperm⟩ : ∃ entries, value = .dictionary entries ∧
      entries.Perm (country row) := by
    cases hsame with
    | refl => exact ⟨_, rfl, List.Perm.refl _⟩
    | dictionary hperm => exact ⟨_, rfl, hperm⟩
  rw [EditUserDetailsViewController.selectedRow, UserRepository.fetch, h]
  simp only [Option.bind_some, Value.asDictionary, short_of_perm hperm, Option.getD_some,
    idxOf?_country row hrow]
  exact .dictionary hperm

def storedNames (defaults : Defaults) : List (Key × Value) :=
  [Key.firstname, .lastname].filterMap fun key => (defaults key).map fun value => (key, value)

theorem names_eq (htabled : Tabled defaults) :
    [(Key.firstname, Value.string
        (trimmingCharacters (EditUserDetailsViewController.text .firstname defaults))),
      (.lastname, .string
        (trimmingCharacters (EditUserDetailsViewController.text .lastname defaults)))].filter
      (fun entry => entry.2 ≠ .string "") = storedNames defaults := by
  rcases text_eq htabled.firstname with ⟨hfirst, hfirst'⟩ | ⟨first, hfirst, hne, hfirst'⟩ <;>
    rcases text_eq htabled.lastname with ⟨hlast, hlast'⟩ | ⟨last, hlast, hne', hlast'⟩ <;>
    simp [storedNames, *]

theorem forM_store_apply {ρ α : Type} (fields : List (Key × Value)) (t : Library.Trace App ρ α) :
    (forM fields fun entry => (App.store entry.1 entry.2 : Library.Callback App ρ α Unit)) t =
      (some (), { t with store := { t.store with
        defaults := fields.foldl (fun defaults entry =>
          UserRepository.store entry.1 entry.2 defaults) t.store.defaults } }) := by
  induction fields generalizing t with
  | nil => rfl
  | cons entry fields ih =>
      rw [List.forM_cons, Library.Callback.bind_apply, App.store_unobserved]
      simp only [ih, List.foldl_cons]

theorem store_eq_self {key : Key} {value : Value} (h : defaults key = some value) :
    UserRepository.store key value defaults = defaults := by
  funext key'
  rw [UserRepository.store]
  split
  · next heq => rw [heq, h]
  · rfl

theorem foldl_store_eq_self {fields : List (Key × Value)}
    (h : ∀ entry ∈ fields, defaults entry.1 = some entry.2) :
    fields.foldl (fun defaults entry => UserRepository.store entry.1 entry.2 defaults) defaults =
      defaults := by
  induction fields with
  | nil => rfl
  | cons entry fields ih =>
      rw [List.foldl_cons, store_eq_self (h entry List.mem_cons_self)]
      exact ih fun other hmem => h other (List.mem_cons_of_mem entry hmem)

theorem storedNames_stored : ∀ entry ∈ storedNames defaults, defaults entry.1 = some entry.2 := by
  intro entry hentry
  obtain ⟨key, -, hkey⟩ := List.mem_filterMap.mp hentry
  obtain ⟨value, hvalue, rfl⟩ := Option.map_eq_some_iff.mp hkey
  exact hvalue

theorem look_details (htabled : Tabled kept.defaults) :
    Editor.details.look user kept =
      let entry : Key × Value := (.country, .dictionary
        (country (EditUserDetailsViewController.selectedRow kept.defaults)))
      some {
        defaults := UserRepository.store entry.1 entry.2 kept.defaults
        documents := updateData kept.documents
          ⟨user.uid, storedNames kept.defaults ++ [entry]⟩ } := by
  unfold Editor.look Editor.code EditUserDetailsViewController.viewDidDisappear
    CurrentUser.EditUserDetailsViewController.viewDidDisappear
    EditUserDetailsViewController.configureElements
  simp only [Library.Callback.exec_apply, Library.Callback.bind_apply,
    Library.Callback.read_apply, names_eq htabled, forM_store_apply, List.foldl_append,
    foldl_store_eq_self storedNames_stored, Library.Callback.send_apply, List.nil_append,
    List.foldl_cons, List.foldl_nil]

theorem look_interests : Editor.interests.look user kept =
    match EditUserInterestsViewController.interests kept.defaults with
    | none => some kept
    | some interests => some {
        defaults := UserRepository.store .interests (.strings interests) kept.defaults
        documents := updateData kept.documents
          ⟨user.uid, [(.interests, .strings interests)]⟩ } := by
  unfold Editor.look Editor.code CurrentUser.EditUserInterestsViewController.viewDidDisappear
  cases EditUserInterestsViewController.interests kept.defaults with
  | none => rfl
  | some interests => rfl

theorem look_settings : Editor.settings.look user kept = some {
    defaults := UserRepository.store .resultLanguage
      (.string (Constants.Languages.short.getD
        (AppSettingsViewController.languageIndex kept.defaults) ""))
      (UserRepository.store .isCountrySpecific
        (.bool (AppSettingsViewController.isCountrySpecific kept.defaults)) kept.defaults)
    documents := kept.documents } := rfl

theorem foldl_setField (document : UserDocument) (value : Value) :
    (storedNames defaults ++ [(Key.country, value)]).foldl setField document = { document with
      firstname := (defaults .firstname).or document.firstname
      lastname := (defaults .lastname).or document.lastname
      country := some value } := by
  unfold storedNames
  cases hfirst : defaults .firstname <;> cases hlast : defaults .lastname <;>
    simp [setField, hfirst, hlast]

theorem sameField_or {key : Key} {field : Option Value} :
    SameField field ((defaults key).or field) ↔ Agrees defaults key field := by
  unfold Agrees
  cases defaults key with
  | none => exact iff_of_true (sameField_refl field) fun _ h => by cases h
  | some value => simp

/-- Writing the stored names and a country leaves a document alone exactly where it has them. -/
theorem setField_same {document : UserDocument} {value : Value} :
    SameDocument document
        ((storedNames defaults ++ [(Key.country, value)]).foldl setField document) ↔
      Agrees defaults .firstname document.firstname ∧
        Agrees defaults .lastname document.lastname ∧
        SameField document.country (some value) := by
  rw [foldl_setField, ← sameField_or, ← sameField_or]
  constructor
  · intro h
    exact ⟨h.firstname, h.lastname, h.country⟩
  · rintro ⟨hfirst, hlast, hcountry⟩
    exact ⟨hfirst, hlast, hcountry, sameField_refl _⟩

theorem details_iff (htabled : Tabled kept.defaults) :
    (∃ kept' ∈ Editor.details.look user kept, kept.Same kept') ↔
      Encoded user kept .details := by
  rw [look_details htabled]
  refine same_iff.trans ?_
  constructor
  · rintro ⟨hcountry, hdocument⟩
    obtain ⟨value, hvalue, hsame⟩ := sameField_some.mp hcountry
    refine ⟨Option.isSome_iff_exists.mpr ⟨value, hvalue⟩, fun document hmem => ?_⟩
    obtain ⟨hfirst, hlast, hfield⟩ := setField_same.mp (hdocument document hmem)
    refine ⟨hfirst, hlast, fun value' hvalue' => ?_⟩
    obtain rfl := Option.some.inj (hvalue.symm.trans hvalue')
    obtain ⟨field, hfield, hsame'⟩ := sameField_some.mp hfield
    exact sameField_some.mpr ⟨field, hfield, hsame'.trans hsame.symm⟩
  · rintro ⟨hcountry, hdocument⟩
    obtain ⟨value, hvalue⟩ := Option.isSome_iff_exists.mp hcountry
    have hentry := country_selectedRow hvalue (htabled.country value hvalue)
    refine ⟨sameField_some.mpr ⟨value, hvalue, hentry⟩, fun document hmem => ?_⟩
    obtain ⟨hfirst, hlast, hfield⟩ := hdocument document hmem
    refine setField_same.mpr ⟨hfirst, hlast, ?_⟩
    obtain ⟨field, hfield, hsame⟩ := sameField_some.mp (hfield value hvalue)
    exact sameField_some.mpr ⟨field, hfield, hsame.trans hentry⟩

theorem interests_iff : (∃ kept' ∈ Editor.interests.look user kept, kept.Same kept') ↔
    Encoded user kept .interests := by
  rw [look_interests, EditUserInterestsViewController.interests, UserRepository.fetch, Encoded]
  cases hstored : kept.defaults .interests with
  | none =>
      refine iff_of_true ⟨kept, rfl, fun key => sameField_refl _, sameDocuments_refl _⟩ ?_
      intro interests hinterests
      cases hinterests
  | some value =>
      cases value with
      | strings interests =>
          simp only [Option.bind_some, Value.asStrings]
          refine same_iff.trans ?_
          rw [hstored]
          refine (and_iff_right (sameField_refl _)).trans ?_
          constructor
          · rintro hdocument interests' hinterests document hmem
            obtain rfl : interests = interests' := by simpa using hinterests
            exact (sameField_iff_eq rfl).mp (hdocument document hmem).interests
          · rintro hdocument document hmem
            exact ⟨sameField_refl _, sameField_refl _, sameField_refl _,
              (sameField_iff_eq rfl).mpr (hdocument interests rfl document hmem)⟩
      | string text | bool flag | dictionary entries =>
          refine iff_of_true ⟨kept, rfl, fun key => sameField_refl _, sameDocuments_refl _⟩ ?_
          intro interests hinterests
          cases hinterests

theorem idxOf?_language : ∀ code ∈ Constants.Languages.short,
    Constants.Languages.short.getD ((Constants.Languages.short.idxOf? code).getD 0) "" = code := by
  decide

theorem settings_iff (htabled : Tabled kept.defaults) :
    (∃ kept' ∈ Editor.settings.look user kept, kept.Same kept') ↔
      Encoded user kept .settings := by
  rw [look_settings, Encoded]
  constructor
  · rintro ⟨kept', hkept, hsame⟩
    obtain rfl := Option.some.inj hkept
    constructor
    · exact ⟨_, (sameField_iff_eq rfl).mp (hsame.defaults .isCountrySpecific)⟩
    · exact Option.isSome_iff_exists.mpr
        ⟨_, (sameField_iff_eq rfl).mp (hsame.defaults .resultLanguage)⟩
  · rintro ⟨⟨isCountrySpecific, hcountry⟩, hlanguage⟩
    obtain ⟨value, hvalue⟩ := Option.isSome_iff_exists.mp hlanguage
    obtain ⟨code, hcode, rfl⟩ := htabled.resultLanguage value hvalue
    have hflag : AppSettingsViewController.isCountrySpecific kept.defaults = isCountrySpecific := by
      rw [AppSettingsViewController.isCountrySpecific, UserRepository.fetch, hcountry]
      rfl
    have hrow : Constants.Languages.short.getD
        (AppSettingsViewController.languageIndex kept.defaults) "" = code := by
      rw [AppSettingsViewController.languageIndex, UserRepository.fetch, hvalue]
      exact idxOf?_language code hcode
    refine ⟨_, rfl, ?_, sameDocuments_refl _⟩
    rw [hflag, hrow, store_eq_self hcountry, store_eq_self hvalue]
    exact fun key => sameField_refl _

end Looks

/-! ## Which looks change nothing -/

/-- **Settings screens.** A signed-in user opens one of the three screens and closes it again:
the stored profile and all documents stay the same exactly where the screen encodes what it has
decoded. -/
theorem look_unchanged {editor : Editor} {user : User} {kept : Kept}
    (htabled : Tabled kept.defaults) :
    (∃ kept' ∈ editor.look user kept, kept.Same kept') ↔ Encoded user kept editor := by
  cases editor with
  | details => exact details_iff htabled
  | interests => exact interests_iff
  | settings => exact settings_iff htabled

/-- A reader from Great Britain, which is written down the other way round in the document. -/
def reader : Kept where
  defaults := Profile.defaults ⟨"Ada", "Byron", country 16, ["science"]⟩ "ada@example.com"
  documents := fun _ => some {
    firstname := some (.string "Ada")
    lastname := some (.string "Byron")
    country := some (.dictionary (country 16).reverse)
    interests := some (.strings ["science"]) }

theorem look_unchanged_reader :
    ∃ kept ∈ Editor.details.look ⟨"ada", none⟩ reader, reader.Same kept := by
  have htabled : Tabled reader.defaults := by
    constructor <;> intro value hvalue <;> obtain rfl := Option.some.inj hvalue
    · exact ⟨"Ada", rfl, by decide, by decide⟩
    · exact ⟨"Byron", rfl, by decide, by decide⟩
    · exact ⟨16, by decide, .refl _⟩
    · exact ⟨"en", by decide, rfl⟩
  refine (look_unchanged htabled).mpr ⟨rfl, fun document hmem => ?_⟩
  obtain rfl := Option.some.inj hmem
  refine ⟨?_, ?_, ?_⟩ <;> intro value hvalue <;> obtain rfl := Option.some.inj hvalue
  · exact .some (.refl _)
  · exact .some (.refl _)
  · exact .some (.dictionary (List.reverse_perm _))

/-- The app is installed again, and the launch has read the document of the user, who is still
signed in. -/
def reinstalled : Kept where
  defaults := Refresh.defaults
    ⟨.string "Ada", .string "Byron", "ada@example.com", country 16, ["science"]⟩ fun _ => none
  documents := reader.documents

/-- The settings are stored for a user who has none. -/
theorem look_stores :
    ¬ ∀ (editor : Editor) (user : User) (kept : Kept), Tabled kept.defaults →
      ∃ kept' ∈ editor.look user kept, kept.Same kept' := by
  intro h
  have htabled : Tabled reinstalled.defaults := by
    constructor <;> intro value hvalue <;> cases hvalue
    · exact ⟨"Ada", rfl, by decide, by decide⟩
    · exact ⟨"Byron", rfl, by decide, by decide⟩
    · exact ⟨16, by decide, .refl _⟩
  have hsettings := (settings_iff htabled).mp
    (h .settings ⟨"ada", some "ada@example.com"⟩ reinstalled htabled)
  exact absurd hsettings.2 (by decide)

end NewsFlash.Accounts.Editors
