import NewsFlash.Requests.Query
import NewsFlash.Screens.Category
import NewsFlash.Screens.TopTitles

/-!
# The settings that a request carries

Four requests to the news service are made from the stored profile. Two runs of the same
request with different contents of `UserDefaults` are compared here: what the named settings
change and what the others do not. The request of a category screen is built before its
country is put into the address.
-/

namespace NewsFlash.Requests

open NewsFlash.Library NewsFlash.Models NewsFlash.Models.Networking NewsFlash.Screens

/-! ## What is sent -/

section Sent

variable (parses : String → Bool) (app : App)

def categoryRequests (category : String) : List CategoryRequest :=
  (Category.CategoryViewController.loadNewsByCategory parses { app } 0 category).inFlight.map
    Category.Pending.request

def topNewsRequests : List TopNewsRequest :=
  ((getLocalTopNews parses : Callback App TopNewsRequest Unit Unit).exec app).2.issued

def allNewsRequests (page : Nat) : List AllNewsRequest :=
  ((getAllNews parses page : Callback App AllNewsRequest Unit Unit).exec app).2.issued

def searchRequests (page : Nat) (q : String) : List SearchRequest :=
  ((getSearchResults parses page q : Callback App SearchRequest Unit Unit).exec app).2.issued

end Sent

/-! ## The settings -/

def isCountrySpecific (app : App) : Bool :=
  ((UserRepository.fetch .isCountrySpecific app.defaults).bind Value.asBool).getD false

def storedCode (app : App) : Option String := (TopTitles.storedCountry app).bind short

def storedLanguage (app : App) : Option String :=
  (UserRepository.fetch .resultLanguage app.defaults).bind Value.asString

def AgreeOn (keys : List Key) (defaults defaults' : Defaults) : Prop :=
  ∀ key ∈ keys, defaults key = defaults' key

/-- Two addresses that are the same up to their country. -/
structure DifferInCountry (url url' code code' : String) : Prop where
  country : ((urlParameters url).filterMap id).lookup "country" = some code
  country' : ((urlParameters url').filterMap id).lookup "country" = some code'
  others : (urlParameters url).filter (fun p => p.map Prod.fst ≠ some "country") =
    (urlParameters url').filter (fun p => p.map Prod.fst ≠ some "country")

section Honoured

variable (parses : String → Bool) (app app' : App) (category : String) (page : Nat) (q : String)

/-- The requests of two runs honour the settings that they are made from, and only those. A
request is sent exactly where its address is a URL. -/
structure Honoured : Prop where
  sent : (categoryRequests parses app category).map CategoryRequest.category =
    if parses (CategoryRequest.url ⟨category⟩) then [category] else []
  differ : isCountrySpecific app = true → isCountrySpecific app' = true →
    ∀ code ∈ storedCode app, ∀ code' ∈ storedCode app', code ≠ code' →
    ∀ request ∈ categoryRequests parses app category,
    ∀ request' ∈ categoryRequests parses app' category,
      DifferInCountry request.url request'.url code code'
  plain : isCountrySpecific app = false → isCountrySpecific app' = false →
    categoryRequests parses app category = categoryRequests parses app' category
  topNews : ∀ code ∈ storedCode app, (topNewsRequests parses app).map TopNewsRequest.url =
    ["https://newsapi.org/v2/top-headlines?country=" ++ code].filter parses
  allNews : ∀ interests ∈ storedInterests app,
    (allNewsRequests parses app page).map AllNewsRequest.url =
      ["https://newsapi.org/v2/everything?sortBy=publishedAt&q=" ++ joinInterests interests ++
        "&language=" ++ (storedLanguage app).getD "" ++ "&page=" ++ toString page].filter parses
  search : (searchRequests parses app page q).map SearchRequest.url =
    ["https://newsapi.org/v2/everything?language=" ++ (storedLanguage app).getD "" ++
      "&sortBy=publishedAt&page=" ++ toString page ++ "&qInTitle=" ++
      addingPercentEncoding q].filter parses
  onlyCategory : AgreeOn [.isCountrySpecific, .country] app.defaults app'.defaults →
    categoryRequests parses app category = categoryRequests parses app' category
  onlyTopNews : AgreeOn [.country] app.defaults app'.defaults →
    topNewsRequests parses app = topNewsRequests parses app'
  onlyAllNews : AgreeOn [.interests, .resultLanguage] app.defaults app'.defaults →
    allNewsRequests parses app page = allNewsRequests parses app' page
  onlySearch : AgreeOn [.resultLanguage] app.defaults app'.defaults →
    searchRequests parses app page q = searchRequests parses app' page q

end Honoured

/-! ## What each request is made from -/

section Requests

variable {parses : String → Bool} {app app' : App}

/-- Whatever is stored, a category screen asks for its category alone. -/
theorem categoryRequests_eq (category : String) :
    categoryRequests parses app category =
      if parses (CategoryRequest.url ⟨category⟩) then [⟨category⟩] else [] := by
  rw [categoryRequests, Category.loadNewsByCategory_eq]
  split <;> rfl

theorem topNewsRequests_eq :
    topNewsRequests parses app =
      if parses (TopNewsRequest.url ⟨TopTitles.countryCode app⟩) then
        [⟨TopTitles.countryCode app⟩] else [] := by
  rw [topNewsRequests, TopTitles.getLocalTopNews_exec]
  split <;> rfl

theorem allNewsRequests_eq (page : Nat) :
    allNewsRequests parses app page = match storedInterests app with
      | none => []
      | some interests =>
          if parses (AllNewsRequest.url ⟨interests, preferredLanguage app, page⟩) then
            [⟨interests, preferredLanguage app, page⟩] else [] := by
  rw [allNewsRequests, Callback.exec_apply, getAllNews_apply]
  simp only
  cases storedInterests app with
  | none => rfl
  | some interests =>
      simp only
      split <;> rfl

theorem searchRequests_eq (page : Nat) (q : String) :
    searchRequests parses app page q =
      if parses (SearchRequest.url ⟨preferredLanguage app, page, q⟩) then
        [⟨preferredLanguage app, page, q⟩] else [] := by
  rw [searchRequests, Callback.exec_apply, getSearchResults_apply]
  simp only
  split <;> rfl

theorem not_differInCountry {url code code' : String} (hne : code ≠ code') :
    ¬ DifferInCountry url url code code' := by
  intro h
  exact hne (Option.some.inj (h.country.symm.trans h.country'))

/-! ## What is stored and what is sent -/

theorem map_ite_eq_filter {α : Type} (url : α → String) (request : α) :
    (if parses (url request) then [request] else []).map url = [url request].filter parses := by
  rw [List.filter_singleton]
  split <;> simp [*]

theorem topNewsRequests_url {code : String} (hcode : code ∈ storedCode app) :
    (topNewsRequests parses app).map TopNewsRequest.url =
      ["https://newsapi.org/v2/top-headlines?country=" ++ code].filter parses := by
  have hcountry : TopTitles.countryCode app = code := by
    unfold storedCode at hcode
    rw [TopTitles.countryCode, Option.mem_def.mp hcode]
    rfl
  rw [topNewsRequests_eq, hcountry]
  exact map_ite_eq_filter TopNewsRequest.url ⟨code⟩

theorem allNewsRequests_url {interests : List String} (hinterests : interests ∈ storedInterests app)
    (page : Nat) : (allNewsRequests parses app page).map AllNewsRequest.url =
      ["https://newsapi.org/v2/everything?sortBy=publishedAt&q=" ++ joinInterests interests ++
        "&language=" ++ (storedLanguage app).getD "" ++ "&page=" ++ toString page].filter
        parses := by
  rw [allNewsRequests_eq, Option.mem_def.mp hinterests]
  exact map_ite_eq_filter AllNewsRequest.url ⟨interests, preferredLanguage app, page⟩

theorem searchRequests_url (page : Nat) (q : String) :
    (searchRequests parses app page q).map SearchRequest.url =
      ["https://newsapi.org/v2/everything?language=" ++ (storedLanguage app).getD "" ++
        "&sortBy=publishedAt&page=" ++ toString page ++ "&qInTitle=" ++
        addingPercentEncoding q].filter parses := by
  rw [searchRequests_eq]
  exact map_ite_eq_filter SearchRequest.url ⟨preferredLanguage app, page, q⟩

theorem topNewsRequests_congr (hagree : AgreeOn [.country] app.defaults app'.defaults) :
    topNewsRequests parses app = topNewsRequests parses app' := by
  have hcode : TopTitles.countryCode app = TopTitles.countryCode app' := by
    simp only [TopTitles.countryCode, TopTitles.storedCountry, UserRepository.fetch,
      hagree .country (by simp)]
  rw [topNewsRequests_eq, topNewsRequests_eq, hcode]

theorem preferredLanguage_congr
    (hlanguage : app.defaults .resultLanguage = app'.defaults .resultLanguage) :
    preferredLanguage app = preferredLanguage app' := by
  simp only [preferredLanguage, UserRepository.fetch, hlanguage]

theorem allNewsRequests_congr (page : Nat)
    (hagree : AgreeOn [.interests, .resultLanguage] app.defaults app'.defaults) :
    allNewsRequests parses app page = allNewsRequests parses app' page := by
  have hinterests : storedInterests app = storedInterests app' := by
    simp only [storedInterests, UserRepository.fetch, hagree .interests (by simp)]
  rw [allNewsRequests_eq, allNewsRequests_eq, hinterests,
    preferredLanguage_congr (hagree .resultLanguage (by simp))]

theorem searchRequests_congr (page : Nat) (q : String)
    (hagree : AgreeOn [.resultLanguage] app.defaults app'.defaults) :
    searchRequests parses app page q = searchRequests parses app' page q := by
  rw [searchRequests_eq, searchRequests_eq,
    preferredLanguage_congr (hagree .resultLanguage (by simp))]

end Requests

/-! ## Which settings are honoured -/

/-- **Settings.** Two runs of every request honour the stored settings and only them, except
where the country should tell two requests of a category screen apart. -/
theorem settings_honoured (parses : String → Bool) (app app' : App) (category : String)
    (page : Nat) (q : String) :
    Honoured parses app app' category page q ↔
      ¬ (parses (CategoryRequest.url ⟨category⟩) = true ∧
        isCountrySpecific app = true ∧ isCountrySpecific app' = true ∧
        ∃ code ∈ storedCode app, ∃ code' ∈ storedCode app', code ≠ code') := by
  have hsame : categoryRequests parses app category = categoryRequests parses app' category := by
    rw [categoryRequests_eq, categoryRequests_eq]
  constructor
  · rintro h ⟨hparses, hspecific, hspecific', code, hcode, code', hcode', hne⟩
    have hsent : ∀ app, ⟨category⟩ ∈ categoryRequests parses app category := by
      intro app
      rw [categoryRequests_eq, if_pos hparses]
      exact List.mem_singleton_self _
    exact not_differInCountry hne
      (h.differ hspecific hspecific' code hcode code' hcode' hne _ (hsent app) _ (hsent app'))
  · intro h
    constructor
    case sent =>
      rw [categoryRequests_eq]
      split <;> rfl
    case differ =>
      intro hspecific hspecific' code hcode code' hcode' hne request hmem
      rw [categoryRequests_eq] at hmem
      split at hmem
      · next hparses =>
          exact absurd ⟨hparses, hspecific, hspecific', code, hcode, code', hcode', hne⟩ h
      · cases hmem
    case plain => exact fun _ _ => hsame
    case topNews => exact fun _ hcode => topNewsRequests_url hcode
    case allNews => exact fun _ hinterests => allNewsRequests_url hinterests page
    case search => exact searchRequests_url page q
    case onlyCategory => exact fun _ => hsame
    case onlyTopNews => exact topNewsRequests_congr
    case onlyAllNews => exact allNewsRequests_congr page
    case onlySearch => exact searchRequests_congr page q

def countryReader (code : String) : App where
  defaults := UserRepository.store .isCountrySpecific (.bool true)
    (UserRepository.store .country (.dictionary [("short", code)]) fun _ => none)

/-- The same request is sent for two countries. -/
theorem country_dropped :
    ¬ ∀ (parses : String → Bool) (app app' : App) (category : String) (page : Nat) (q : String),
      Honoured parses app app' category page q := by
  intro h
  have hdiffer := (h (fun _ => true) (countryReader "us") (countryReader "bg") "sports" 1 "").differ
    rfl rfl "us" rfl "bg" rfl (by decide) ⟨"sports"⟩
  simp only [categoryRequests_eq, if_true] at hdiffer
  exact not_differInCountry (by decide)
    (hdiffer (List.mem_singleton_self _) _ (List.mem_singleton_self _))

end NewsFlash.Requests
