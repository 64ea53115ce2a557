import NewsFlash.Models.Authentication
import NewsFlash.Models.Networking

/-!
# The tabs that observe the stored profile

For You asks for its first page again whenever the interests or the language change, Flash
Cards for its titles whenever the country does. Both unwrap the address of their request while
the writer of the key still waits. The requests are answered to the tabs.
-/

namespace NewsFlash.Models

open NewsFlash.Library NewsFlash.Models.Networking NewsFlash.Models.Authentication

variable {α : Type} (parses : String → Bool)

/-- `handleRefresh` takes the first page. -/
def ForYouViewController.observeValue : Callback App AllNewsRequest α Unit := do
  if (← App.checkFor .interests) && (← App.checkFor .resultLanguage) then
    getAllNews parses 1

def FlashCardsViewController.observeValue : Callback App TopNewsRequest α Unit := do
  if ← App.checkFor .country then getLocalTopNews parses

structure Tabs where
  forYou : Bool := false
  flashCards : Bool := false
deriving DecidableEq, Repr

namespace Tabs

variable (tabs : Tabs)

def run (key : Key) (defaults : Defaults) : Bool :=
  match key with
  | .interests | .resultLanguage => !tabs.forYou ||
      ((ForYouViewController.observeValue parses :
        Callback App AllNewsRequest Unit Unit).exec { defaults }).1.isSome
  | .country => !tabs.flashCards ||
      ((FlashCardsViewController.observeValue parses :
        Callback App TopNewsRequest Unit Unit).exec { defaults }).1.isSome
  | _ => true

/-- The address of the request for the top titles of a country is a URL, if there is one. -/
def TopNewsParses (country : Country) : Prop :=
  tabs.flashCards = true → parses (TopNewsRequest.url ⟨(short country).getD "bg"⟩) = true

def AllNewsParses (interests : List String) (language : String) : Prop :=
  tabs.forYou = true → parses (AllNewsRequest.url ⟨interests, language, 1⟩) = true

/-- `AllNewsParses` in the language that is stored, if one is. -/
def StoredNewsParse (defaults : Defaults) (interests : List String) : Prop :=
  ∀ language ∈ defaults .resultLanguage,
    tabs.AllNewsParses parses interests (language.asString.getD "")

/-- The tabs can ask for the news of the profile that a login stores; the language comes after
the interests. -/
def AcceptLogin (defaults : Defaults) (profile : Profile) : Prop :=
  tabs.TopNewsParses parses profile.country ∧
    tabs.StoredNewsParse parses defaults profile.interests ∧
    tabs.AllNewsParses parses profile.interests "en"

def AcceptRefresh (defaults : Defaults) (refresh : Refresh) : Prop :=
  tabs.TopNewsParses parses refresh.country ∧
    tabs.StoredNewsParse parses defaults refresh.interests

def AcceptBasics (defaults : Defaults) (country : Country) : Prop :=
  tabs.TopNewsParses parses country ∧
    ∀ interests ∈ (defaults .interests).bind Value.asStrings,
      tabs.AllNewsParses parses interests "en"

instance (country : Country) : Decidable (tabs.TopNewsParses parses country) :=
  inferInstanceAs (Decidable (_ → _))

instance (interests : List String) (language : String) :
    Decidable (tabs.AllNewsParses parses interests language) :=
  inferInstanceAs (Decidable (_ → _))

instance (defaults : Defaults) (interests : List String) :
    Decidable (tabs.StoredNewsParse parses defaults interests) :=
  inferInstanceAs (Decidable (∀ _ ∈ _, _))

instance (defaults : Defaults) (profile : Profile) :
    Decidable (tabs.AcceptLogin parses defaults profile) :=
  inferInstanceAs (Decidable (_ ∧ _ ∧ _))

instance (defaults : Defaults) (refresh : Refresh) :
    Decidable (tabs.AcceptRefresh parses defaults refresh) :=
  inferInstanceAs (Decidable (_ ∧ _))

instance (defaults : Defaults) (country : Country) :
    Decidable (tabs.AcceptBasics parses defaults country) :=
  inferInstanceAs (Decidable (_ ∧ ∀ _ ∈ _, _))

/-! ## What the observers unwrap -/

theorem observeValue_allNews (defaults : Defaults) :
    ((ForYouViewController.observeValue parses :
        Callback App AllNewsRequest Unit Unit).exec { defaults }).1.isSome = true ↔
      ∀ interests ∈ (defaults .interests).bind Value.asStrings,
        ∀ language ∈ defaults .resultLanguage,
          parses (AllNewsRequest.url ⟨interests, language.asString.getD "", 1⟩) = true := by
  rw [Callback.exec_apply, ForYouViewController.observeValue]
  simp only [App.checkFor, Callback.bind_apply, Callback.read_apply, UserRepository.checkFor]
  cases hinterests : defaults .interests with
  | none => simp
  | some interests =>
      cases hlanguage : defaults .resultLanguage with
      | none => simp
      | some language =>
          have hstored : storedInterests { defaults } = interests.asStrings := by
            simp [storedInterests, UserRepository.fetch, hinterests]
          have hpreferred : preferredLanguage { defaults } = language.asString.getD "" := by
            simp [preferredLanguage, UserRepository.fetch, hlanguage]
          simp only [Option.isSome_some, Bool.and_self, if_true, getAllNews_apply, hstored,
            hpreferred, Option.bind_some, Option.mem_def]
          cases interests.asStrings with
          | none => simp
          | some stored => simp [apply_ite]

theorem run_country (defaults : Defaults) (country : Country) :
    tabs.run parses .country (UserRepository.store .country (.dictionary country) defaults) = true ↔
      tabs.TopNewsParses parses country := by
  set stored := UserRepository.store .country (.dictionary country) defaults with hstored
  have hcountry : stored .country = some (.dictionary country) := by rw [hstored]; exact if_pos rfl
  have hrequested : requestedCountry { defaults := stored } = (short country).getD "bg" := by
    simp [requestedCountry, UserRepository.fetch, hcountry, Value.asDictionary]
  simp only [run, TopNewsParses, FlashCardsViewController.observeValue, App.checkFor,
    Callback.exec_apply, Callback.bind_apply, Callback.read_apply, UserRepository.checkFor,
    hcountry, Option.isSome_some, if_true, getLocalTopNews_apply, hrequested]
  cases tabs.flashCards <;> simp [apply_ite]

theorem run_allNews {key : Key} (hkey : key = .interests ∨ key = .resultLanguage)
    (defaults : Defaults) :
    tabs.run parses key defaults = true ↔
      ∀ interests ∈ (defaults .interests).bind Value.asStrings,
        tabs.StoredNewsParse parses defaults interests := by
  have hrun : tabs.run parses key defaults = (!tabs.forYou ||
      ((ForYouViewController.observeValue parses :
        Callback App AllNewsRequest Unit Unit).exec { defaults }).1.isSome) := by
    rcases hkey with rfl | rfl <;> rfl
  rw [hrun, Bool.or_eq_true, observeValue_allNews]
  simp only [StoredNewsParse, AllNewsParses]
  cases tabs.forYou <;> simp

theorem run_of_absent {key : Key} {defaults : Defaults} (h : defaults key = none) :
    tabs.run parses key defaults = true := by
  cases key with
  | interests => simp [run_allNews, h]
  | resultLanguage => simp [run_allNews, StoredNewsParse, h]
  | country =>
      simp [run, FlashCardsViewController.observeValue, App.checkFor, UserRepository.checkFor, h]
  | firstname | lastname | email | isCountrySpecific => rfl

@[reducible] def observers : Observers where
  run := tabs.run parses
  run_of_absent _ _ := tabs.run_of_absent parses

theorem observers_run (key : Key) (defaults : Defaults) :
    @Observers.run (tabs.observers parses) key defaults = tabs.run parses key defaults := rfl

/-! ## What the operations store -/

section Stored

variable {parses tabs} {defaults : Defaults}

theorem run_interests (interests : List String) :
    tabs.run parses .interests
        (UserRepository.store .interests (.strings interests) defaults) = true ↔
      tabs.StoredNewsParse parses defaults interests := by
  rw [run_allNews parses tabs (Or.inl rfl)]
  simp [UserRepository.store, StoredNewsParse, Value.asStrings]

theorem run_resultLanguage (language : String) :
    tabs.run parses .resultLanguage
        (UserRepository.store .resultLanguage (.string language) defaults) = true ↔
      ∀ interests ∈ (defaults .interests).bind Value.asStrings,
        tabs.AllNewsParses parses interests language := by
  rw [run_allNews parses tabs (Or.inr rfl)]
  simp [UserRepository.store, StoredNewsParse, Value.asString]

end Stored

theorem through_login (profile : Profile) (email : String) (defaults : Defaults) :
    @Observers.through (tabs.observers parses) (profile.entries email) defaults = true ↔
      tabs.AcceptLogin parses defaults profile := by
  simp only [Profile.entries, Observers.through, observers_run, Bool.and_eq_true, run_country,
    run_interests, run_resultLanguage]
  simp [run, AcceptLogin, StoredNewsParse, UserRepository.store, Value.asStrings]

theorem through_refresh (refresh : Refresh) (defaults : Defaults) :
    @Observers.through (tabs.observers parses) refresh.entries defaults = true ↔
      tabs.AcceptRefresh parses defaults refresh := by
  simp only [Refresh.entries, Observers.through, observers_run, Bool.and_eq_true, run_country,
    run_interests]
  simp [run, AcceptRefresh, StoredNewsParse, UserRepository.store]

theorem through_basics (firstName lastName email : String) (country : Country)
    (defaults : Defaults) :
    @Observers.through (tabs.observers parses)
        (signUpBasics.entries firstName lastName email country) defaults = true ↔
      tabs.AcceptBasics parses defaults country := by
  simp only [signUpBasics.entries, Observers.through, observers_run, Bool.and_eq_true,
    run_country, run_resultLanguage]
  simp [run, AcceptBasics, UserRepository.store]

end Tabs

end NewsFlash.Models
