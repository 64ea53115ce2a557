import NewsFlash.Accounts.Devices
import NewsFlash.Accounts.Pills
import NewsFlash.Library.Triple
import NewsFlash.Requests.Settings

/-!
# From the account to the request

A profile is made of what the app offers: a row of the table of countries, interests of the
pills, a language of the table. It travels from an editor to the document of the user, from there
to the defaults of another device, and from these into the address of a request. At its end the
news service reads the parameters of the address.
-/

namespace NewsFlash.Requests.Account

open NewsFlash.Accounts NewsFlash.Accounts.Devices NewsFlash.Library NewsFlash.Models
open NewsFlash.Models.Authentication NewsFlash.Models.Networking NewsFlash.Screens

/-! ## What the app offers -/

def interestNames : List String :=
  [Pills.Pill.business, .entertainment, .health, .science, .sports, .technology].map
    Pills.Pill.interest

/-- A stored value that some control of the app offers. -/
def Offered : Key × Value → Prop
  | (.country, value) => ∃ country ∈ value.asDictionary,
      ∃ row < Constants.Countries.short.length, country.Perm (Editors.country row)
  | (.interests, value) => ∃ interests ∈ value.asStrings, ∀ interest ∈ interests,
      interest ∈ interestNames
  | (.resultLanguage, value) => ∃ code ∈ value.asString, code ∈ Constants.Languages.short
  | _ => True

def OfferedDefaults (defaults : Defaults) : Prop :=
  ∀ key, ∀ value ∈ defaults key, Offered (key, value)

structure OfferedDocument (document : UserDocument) : Prop where
  country : ∀ value ∈ document.country, Offered (.country, value)
  interests : ∀ value ∈ document.interests, Offered (.interests, value)

/-- A request whose closure stores what the app offers. -/
def OfferedRequest : AuthRequest → Prop
  | .createUser _ _ _ _ country | .setBasics _ _ _ _ country =>
      Offered (.country, .dictionary country)
  | _ => True

/-- What is chosen comes from what the app offers, and documents hold nothing else. -/
def ChosenEvent : Event → Prop
  | .start (.signUpBasics _ _ _ _ country) => Offered (.country, .dictionary country)
  | .deliver _ service _ => ∀ document ∈ service.document, OfferedDocument document
  | .expanded selectedInterests _ => Offered (.interests, .strings selectedInterests)
  | .closeDetails _ _ country => Offered (.country, .dictionary country)
  | .closeInterests interests => ∀ chosen ∈ interests, Offered (.interests, .strings chosen)
  | .closeSettings _ language => Offered (.resultLanguage, .string language)
  | _ => True

def Chosen {ι : Type} : Action ι → Prop
  | .on _ event => ChosenEvent event
  | _ => True

instance : (field : Key × Value) → Decidable (Offered field)
  | (.country, _) | (.interests, _) | (.resultLanguage, _) =>
      inferInstanceAs (Decidable (∃ _, _))
  | (.firstname, _) | (.lastname, _) | (.email, _) | (.isCountrySpecific, _) =>
      inferInstanceAs (Decidable True)

instance (document : UserDocument) : Decidable (OfferedDocument document) :=
  decidable_of_iff ((∀ value ∈ document.country, Offered (.country, value)) ∧
    ∀ value ∈ document.interests, Offered (.interests, value))
    ⟨fun h => ⟨h.1, h.2⟩, fun h => ⟨h.country, h.interests⟩⟩

instance : (event : Event) → Decidable (ChosenEvent event)
  | .start (.signUpBasics _ _ _ _ country) | .closeDetails _ _ country =>
      inferInstanceAs (Decidable (Offered (.country, .dictionary country)))
  | .deliver _ _ _ | .closeInterests _ => inferInstanceAs (Decidable (∀ _ ∈ _, _))
  | .expanded interests _ => inferInstanceAs (Decidable (Offered (.interests, .strings interests)))
  | .closeSettings _ language =>
      inferInstanceAs (Decidable (Offered (.resultLanguage, .string language)))
  | .start (.login _ _) | .start .updateUserData | .start (.signUpInterests _) | .observe _
  | .signOut _ | .removeUserInfo => inferInstanceAs (Decidable True)

instance {ι : Type} : (a : Action ι) → Decidable (Chosen a)
  | .on _ event => inferInstanceAs (Decidable (ChosenEvent event))
  | .launch _ | .apply _ _ _ | .replace _ _ => inferInstanceAs (Decidable True)

/-! ## What the code stores and sends -/

section Code

variable {ρ α : Type} {J : ρ → Prop}

/-- Code that stores what the app offers, and nothing else. -/
abbrev Keeps (J : ρ → Prop) (code : Callback App ρ α Unit) : Prop :=
  Callback.Triple (fun app => OfferedDefaults app.defaults) J code fun _ => True

theorem store_keeps [Observers] {key : Key} {value : Value} (hvalue : Offered (key, value)) :
    Keeps J (App.store key value : Callback App ρ α Unit) := by
  refine Callback.Triple.seq (Callback.Triple.write fun app happ other value' hvalue' => ?_)
    Callback.Triple.check
  change (if other = key then some value else app.defaults other) = some value' at hvalue'
  split at hvalue'
  · next hkey =>
      obtain rfl := Option.some.inj hvalue'
      rw [hkey]
      exact hvalue
  · exact happ other value' hvalue'

theorem removed_keeps {app : App} {key : Key} (happ : OfferedDefaults app.defaults) :
    OfferedDefaults (UserRepository.removeObject key app.defaults) := by
  intro other value hvalue
  change (if other = key then none else app.defaults other) = some value at hvalue
  split at hvalue
  · cases hvalue
  · exact happ other value hvalue

theorem removeUserInfo_keeps [Observers] :
    Keeps J (App.removeUserInfo : Callback App ρ α Unit) :=
  Callback.Triple.forM fun _ _ => Callback.Triple.seq
    (Callback.Triple.write fun _ happ => removed_keeps happ) Callback.Triple.check

/-- A forced value is stored, and the rest does not look at it. -/
theorem forcedStore_keeps [Observers] {β : Type} {key : Key} {value : Option β} {wrap : β → Value}
    {code : Callback App ρ α Unit} (hvalue : ∀ b ∈ value, Offered (key, wrap b))
    (hcode : Keeps J code) :
    Keeps J (Callback.forced value >>= fun b => App.store key (wrap b) >>= fun _ => code) :=
  Callback.Triple.bind (Callback.Triple.forced hvalue) fun _ hb =>
    Callback.Triple.seq (store_keeps hb) hcode

theorem forcedCurrentUser_keeps :
    Callback.Triple (fun app => OfferedDefaults app.defaults) J
      (App.forcedCurrentUser : Callback App ρ α User) fun _ => True :=
  Callback.Triple.bind (Callback.Triple.read (Q := fun _ => True) fun _ _ => trivial) fun _ _ =>
    Callback.Triple.forced fun _ _ => trivial

theorem cast_offered {key : Key} {field : Option Value} {β : Type} {cast : Value → Option β}
    {wrap : β → Value} (hwrap : ∀ {value b}, cast value = some b → value = wrap b)
    (hfield : ∀ value ∈ field, Offered (key, value)) :
    ∀ b ∈ field.bind cast, Offered (key, wrap b) :=
  fun _ hb => hfield _ (eq_of_cast hwrap hb)

variable {document : UserDocument}

theorem country_offered (hdocument : OfferedDocument document) :
    ∀ country ∈ document.country.bind Value.asDictionary,
      Offered (.country, .dictionary country) :=
  cast_offered asDictionary_eq_some hdocument.country

theorem interests_offered (hdocument : OfferedDocument document) :
    ∀ interests ∈ document.interests.bind Value.asStrings,
      Offered (.interests, .strings interests) :=
  cast_offered asStrings_eq_some hdocument.interests

theorem english_offered : Offered (.resultLanguage, .string "en") := ⟨"en", rfl, by decide⟩

theorem unownedSelf_keeps (gone : Bool) : Keeps OfferedRequest (SignOut.unownedSelf gone) := by
  cases gone with
  | true => exact Callback.Triple.trap
  | false => exact Callback.Triple.pure trivial

theorem completion_keeps (gone : Bool) (request : AuthRequest) (message : Option String) :
    Keeps OfferedRequest (SignOut.completion gone request message) := by
  cases request with
  | mergeInterests uid interests =>
      refine Callback.Triple.seq (unownedSelf_keeps gone) ?_
      cases message with
      | none => exact Callback.Triple.complete
      | some message => exact Callback.Triple.pure trivial
  | signIn | loginDocument | userData | createUser | setBasics => exact unownedSelf_keeps gone

section Closures

variable [Observers]

theorem onDocument_keeps (completion : Option String → Callback App AuthRequest α Unit)
    (hcompletion : ∀ message, Keeps OfferedRequest (completion message)) (email : String)
    {served : Option UserDocument} (hserved : ∀ document ∈ served, OfferedDocument document) :
    Keeps OfferedRequest (login.onDocument completion email served) := by
  cases served with
  | none => exact Callback.Triple.pure trivial
  | some document =>
      have hdocument := hserved document rfl
      refine forcedStore_keeps (fun _ _ => trivial) ?_
      refine forcedStore_keeps (fun _ _ => trivial) ?_
      apply forcedStore_keeps (country_offered hdocument)
      apply forcedStore_keeps (interests_offered hdocument)
      refine Callback.Triple.seq (store_keeps trivial) ?_
      refine Callback.Triple.seq (store_keeps english_offered) ?_
      exact Callback.Triple.seq (store_keeps trivial) (hcompletion none)

theorem refresh_keeps {served : Option UserDocument}
    (hserved : ∀ document ∈ served, OfferedDocument document) :
    Keeps OfferedRequest (updateUserData.onDocument served : Callback App AuthRequest α Unit) := by
  cases served with
  | none => exact Callback.Triple.pure trivial
  | some document =>
      have hdocument := hserved document rfl
      refine Callback.Triple.bind (Callback.Triple.forced fun _ _ => trivial) fun _ _ => ?_
      refine Callback.Triple.seq (store_keeps trivial) ?_
      refine Callback.Triple.bind (Callback.Triple.forced fun _ _ => trivial) fun _ _ => ?_
      refine Callback.Triple.seq (store_keeps trivial) ?_
      refine Callback.Triple.bind forcedCurrentUser_keeps fun currentUser _ => ?_
      refine Callback.Triple.bind (Callback.Triple.forced fun _ _ => trivial) fun email _ => ?_
      refine Callback.Triple.seq (store_keeps trivial) ?_
      apply forcedStore_keeps (country_offered hdocument)
      exact Callback.Triple.bind (Callback.Triple.forced (interests_offered hdocument))
        fun interests hinterests => store_keeps hinterests

theorem onSaved_keeps (completion : Option String → Callback App AuthRequest α Unit)
    (hcompletion : ∀ message, Keeps OfferedRequest (completion message))
    {firstName lastName email : String} {country : Country}
    (hcountry : Offered (.country, .dictionary country)) (error : Bool) :
    Keeps OfferedRequest
      (signUpBasics.onSaved completion firstName lastName email country error) := by
  cases error with
  | true => exact hcompletion _
  | false =>
      refine Callback.Triple.seq (store_keeps trivial) ?_
      refine Callback.Triple.seq (store_keeps trivial) ?_
      refine Callback.Triple.seq (store_keeps hcountry) ?_
      refine Callback.Triple.seq (store_keeps trivial) ?_
      refine Callback.Triple.seq (store_keeps english_offered) ?_
      exact Callback.Triple.seq (store_keeps trivial) (hcompletion none)

theorem answer_keeps {service : Service} {request : AuthRequest} (gone : Bool)
    (hrequest : OfferedRequest request)
    (hserved : ∀ document ∈ service.document, OfferedDocument document) :
    Keeps OfferedRequest (service.answer (SignOut.completion gone request) request) := by
  have hcompletion := completion_keeps gone request
  cases request with
  | signIn email password =>
      rw [Service.answer]
      cases service.signedIn with
      | error message => exact hcompletion (some message)
      | ok user => exact Callback.Triple.send trivial
  | createUser firstName lastName email password country =>
      rw [Service.answer]
      cases service.created with
      | error message => exact hcompletion (some message)
      | ok user => exact Callback.Triple.send hrequest
  | loginDocument uid email => exact onDocument_keeps _ hcompletion email hserved
  | userData uid => exact refresh_keeps hserved
  | setBasics uid firstName lastName email country =>
      exact onSaved_keeps _ hcompletion hrequest service.error
  | mergeInterests uid interests =>
      rw [Service.answer, signUpInterests.onSaved]
      cases service.error <;> exact hcompletion _

theorem signOut_keeps (ok : Bool) :
    Keeps J (Authentication.signOut (fun _ => pure ()) ok : Callback App ρ α Unit) := by
  cases ok with
  | false => exact Callback.Triple.pure trivial
  | true =>
      refine Callback.Triple.seq (Callback.Triple.write fun _ happ => happ) ?_
      exact Callback.Triple.seq removeUserInfo_keeps (Callback.Triple.pure trivial)

theorem expanded_keeps (gone : Bool) {selectedInterests : List String}
    (hinterests : Offered (.interests, .strings selectedInterests)) :
    Keeps OfferedRequest (SignOut.expanded gone selectedInterests) :=
  Callback.Triple.seq (unownedSelf_keeps gone) (store_keeps hinterests)

theorem closeDetails_keeps (firstName lastName : String) {country : Country}
    (hcountry : Offered (.country, .dictionary country)) :
    Keeps (fun _ => True) (CurrentUser.EditUserDetailsViewController.viewDidDisappear firstName
      lastName country) := by
  refine Callback.Triple.bind (Callback.Triple.read (Q := fun _ => True) fun _ _ => trivial)
    fun currentUser _ => ?_
  cases currentUser with
  | none => exact Callback.Triple.pure trivial
  | some user =>
      refine Callback.Triple.seq (Callback.Triple.forM fun field hfield => store_keeps ?_)
        (Callback.Triple.send trivial)
      rcases List.mem_append.mp hfield with hfield | hfield
      · have hname := List.mem_of_mem_filter hfield
        simp only [List.mem_cons, List.not_mem_nil, or_false] at hname
        rcases hname with rfl | rfl <;> trivial
      · obtain rfl := List.mem_singleton.mp hfield
        exact hcountry

theorem closeInterests_keeps {interests : Option (List String)}
    (hinterests : ∀ chosen ∈ interests, Offered (.interests, .strings chosen)) :
    Keeps (fun _ => True)
      (CurrentUser.EditUserInterestsViewController.viewDidDisappear interests) := by
  cases interests with
  | none => exact Callback.Triple.pure trivial
  | some chosen =>
      refine Callback.Triple.seq (store_keeps (hinterests chosen rfl)) ?_
      exact Callback.Triple.bind forcedCurrentUser_keeps fun _ _ => Callback.Triple.send trivial

theorem closeSettings_keeps (isCountrySpecific : Bool) {language : String}
    (hlanguage : Offered (.resultLanguage, .string language)) :
    Keeps (fun _ => True) (CurrentUser.AppSettingsViewController.viewDidDisappear
      isCountrySpecific language) :=
  Callback.Triple.seq (store_keeps trivial) (store_keeps hlanguage)

end Closures

end Code

/-! ## What the devices hold -/

structure OfferedDevice (d : Device) : Prop where
  defaults : OfferedDefaults d.app.defaults
  inFlight : ∀ request ∈ d.inFlight, OfferedRequest request

section Device

variable {d d' : Device} {documents : Uid → Option UserDocument}

theorem run_offered {code : Callback App AuthRequest Unit Unit} (hd : OfferedDevice d)
    (hcode : Keeps OfferedRequest code) : OfferedDevice (d.run code) := by
  obtain ⟨hdefaults, hissued⟩ := hcode.exec hd.defaults
  refine ⟨hdefaults, fun request hrequest => ?_⟩
  rcases List.mem_append.mp hrequest with hrequest | hrequest
  · exact hd.inFlight request hrequest
  · exact hissued request hrequest

theorem edit_offered {code : Callback App CurrentUser.UpdateData Unit Unit}
    (hd : OfferedDevice d) (hcode : Keeps (fun _ => True) code) : OfferedDevice (d.edit code) :=
  ⟨(hcode.exec hd.defaults).1, hd.inFlight⟩

theorem updateUserData_keeps :
    Keeps OfferedRequest (updateUserData : Callback App AuthRequest Unit Unit) :=
  Callback.Triple.bind forcedCurrentUser_keeps fun _ _ => Callback.Triple.send trivial

theorem body_keeps {operation : SignOut.Operation} (h : ChosenEvent (.start operation)) :
    Keeps OfferedRequest operation.body := by
  cases operation with
  | login email password => exact Callback.Triple.send trivial
  | updateUserData => exact updateUserData_keeps
  | signUpBasics firstName lastName email password country => exact Callback.Triple.send h
  | signUpInterests interests =>
      exact Callback.Triple.bind forcedCurrentUser_keeps fun _ _ => Callback.Triple.send trivial

theorem launch_offered (hd : OfferedDevice d) : OfferedDevice d.launch := by
  unfold Device.launch
  simp only
  split
  · exact run_offered ⟨hd.defaults, fun _ hrequest => absurd hrequest List.not_mem_nil⟩
      updateUserData_keeps
  · exact ⟨hd.defaults, fun _ hrequest => absurd hrequest List.not_mem_nil⟩

theorem event_offered {event : Event} (hd : OfferedDevice d) (hchosen : ChosenEvent event)
    (h : d.step documents event = some d') : OfferedDevice d' := by
  obtain ⟨-, h⟩ := Option.ite_none_left_eq_some.mp h
  let _ := d.observers
  cases event with
  | observe observers =>
      obtain rfl := Option.some.inj h
      exact ⟨hd.defaults, hd.inFlight⟩
  | start operation =>
      obtain rfl := Option.some.inj h
      exact run_offered hd (body_keeps hchosen)
  | deliver k service gone =>
      obtain ⟨⟨request, inFlight⟩, hpick, rfl⟩ := Option.map_eq_some_iff.mp h
      refine run_offered ⟨hd.defaults, fun other hother => ?_⟩ (answer_keeps gone ?_ hchosen)
      · exact hd.inFlight other (mem_of_mem_pick hpick hother)
      · exact hd.inFlight request (mem_of_pick hpick)
  | expanded selectedInterests gone =>
      obtain ⟨-, h⟩ := Option.ite_none_right_eq_some.mp h
      obtain rfl := Option.some.inj h
      exact run_offered ⟨hd.defaults, hd.inFlight⟩ (expanded_keeps gone hchosen)
  | signOut ok =>
      obtain rfl := Option.some.inj h
      exact run_offered ⟨hd.defaults, hd.inFlight⟩ (signOut_keeps ok)
  | removeUserInfo =>
      obtain rfl := Option.some.inj h
      exact run_offered ⟨hd.defaults, hd.inFlight⟩ removeUserInfo_keeps
  | closeDetails firstName lastName country =>
      obtain rfl := Option.some.inj h
      exact edit_offered hd (closeDetails_keeps firstName lastName hchosen)
  | closeInterests interests =>
      obtain rfl := Option.some.inj h
      exact edit_offered hd (closeInterests_keeps hchosen)
  | closeSettings isCountrySpecific language =>
      obtain rfl := Option.some.inj h
      exact edit_offered hd (closeSettings_keeps isCountrySpecific hchosen)

end Device

section World

variable {ι : Type} [DecidableEq ι] {w w' : World ι}

def OfferedWorld (w : World ι) : Prop := ∀ i, OfferedDevice (w.devices i)

theorem set_offered (hw : OfferedWorld w) {i : ι} {d : Device} (hd : OfferedDevice d) :
    OfferedWorld (w.set i d) :=
  (Function.forall_update_iff w.devices fun _ d => OfferedDevice d).mpr ⟨hd, fun j _ => hw j⟩

theorem apply_offered (hw : OfferedWorld w) {i : ι} {uid : Uid} {accepted : Bool}
    (h : w.apply i uid accepted = some w') : OfferedWorld w' := by
  unfold World.apply at h
  split at h
  · cases h
  · cases accepted with
    | false =>
        obtain rfl := Option.some.inj h
        exact set_offered hw ⟨(hw i).defaults, (hw i).inFlight⟩
    | true =>
        obtain rfl := Option.some.inj h
        exact (Function.forall_update_iff _ fun _ d => OfferedDevice d).mpr
          ⟨⟨(hw i).defaults, (hw i).inFlight⟩, fun j _ => ⟨(hw j).defaults, (hw j).inFlight⟩⟩

theorem step_offered {a : Action ι} (hw : OfferedWorld w) (hchosen : Chosen a)
    (h : (machine ι).step w a = some w') : OfferedWorld w' := by
  change w.step a = some w' at h
  cases a with
  | launch i =>
      obtain rfl := Option.some.inj h
      exact set_offered hw (launch_offered (hw i))
  | on i event =>
      obtain ⟨d, hd, rfl⟩ := Option.map_eq_some_iff.mp h
      exact set_offered hw (event_offered (hw i) hchosen hd)
  | apply i uid accepted => exact apply_offered hw h
  | replace uid document =>
      obtain rfl := Option.some.inj h
      exact fun j => ⟨(hw j).defaults, (hw j).inFlight⟩

end World

/-! ## What the news service reads -/

/-- The news service is asked for a country and for interests. -/
structure Asked (parses : String → Bool) (app : App) (country : Country)
    (interests : List String) : Prop where
  topNews : ∃ code ∈ Constants.Countries.short, short country = some code ∧
    topNewsRequests parses app =
      [TopNewsRequest.mk code].filter (fun request => parses request.url) ∧
    urlParameters (TopNewsRequest.url ⟨code⟩) = [some ("country", code)]
  allNews : ∀ page, ∃ request : AllNewsRequest,
    allNewsRequests parses app page = [request].filter (fun request => parses request.url) ∧
    urlParameters request.url = [("sortBy", "publishedAt"),
      ("q", " OR ".intercalate interests), ("language", preferredLanguage app),
      ("page", toString page)].map some

theorem plain_countries : ∀ code ∈ Constants.Countries.short, Plain code.toList := by decide

theorem unreserved_interests :
    ∀ interest ∈ interestNames, interest.toList.all unreserved = true := by decide +kernel

/-- A plain country is the only parameter of its address. -/
theorem topNews_parameters {code : String} (hcode : Plain code.toList) :
    urlParameters (TopNewsRequest.url ⟨code⟩) = [some ("country", code)] := by
  have hurl : (TopNewsRequest.url ⟨code⟩).toList =
      "https://newsapi.org/v2/top-headlines".toList ++ '?' :: field "country" code.toList := by
    have hbase : "https://newsapi.org/v2/top-headlines?country=".toList =
        "https://newsapi.org/v2/top-headlines".toList ++ '?' :: ("country".toList ++ ['=']) := by
      decide +kernel
    unfold TopNewsRequest.url
    simp only [String.toList_append, hbase, field, List.append_assoc, List.cons_append,
      List.nil_append]
  change urlParameters _ = [("country", code)].map some
  rw [urlParameters_eq_iff, hurl, queryOf_append (by decide)]
  exact (parameters_last (by decide) hcode.2.1 (percentDecode_plain hcode.2.2)).mpr hcode.1

section Asked

variable {parses : String → Bool} {app : App} {country : Country} {interests : List String}

theorem asked_topNews (hcountry : app.defaults .country = some (.dictionary country))
    (hoffered : Offered (.country, .dictionary country)) :
    ∃ code ∈ Constants.Countries.short, short country = some code ∧
      topNewsRequests parses app =
        [TopNewsRequest.mk code].filter (fun request => parses request.url) ∧
      urlParameters (TopNewsRequest.url ⟨code⟩) = [some ("country", code)] := by
  obtain ⟨_, hsome, row, hrow, hperm⟩ := hoffered
  obtain rfl := Option.some.inj hsome
  have hshort := Editors.short_of_perm hperm
  have hmem : Constants.Countries.short.getD row "" ∈ Constants.Countries.short := by
    rw [List.getD_eq_getElem?_getD, List.getElem?_eq_getElem hrow]
    exact List.getElem_mem hrow
  have hcode : TopTitles.countryCode app = Constants.Countries.short.getD row "" := by
    simp only [TopTitles.countryCode, TopTitles.storedCountry, UserRepository.fetch, hcountry,
      Option.bind_some, Value.asDictionary, hshort, Option.getD_some]
  refine ⟨_, hmem, hshort, ?_, topNews_parameters (plain_countries _ hmem)⟩
  rw [topNewsRequests_eq, hcode, List.filter_singleton]
  cases parses _ <;> rfl

theorem plain_preferredLanguage (h : OfferedDefaults app.defaults) :
    Plain (preferredLanguage app).toList := by
  unfold preferredLanguage UserRepository.fetch
  cases hvalue : app.defaults .resultLanguage with
  | none => decide
  | some value =>
      obtain ⟨code, hcode, hmem⟩ := h .resultLanguage value hvalue
      rw [Option.bind_some, Option.mem_def.mp hcode]
      exact plain_languages code hmem

theorem asked_allNews (hinterests : app.defaults .interests = some (.strings interests))
    (hoffered : OfferedDefaults app.defaults) (page : Nat) : ∃ request : AllNewsRequest,
      allNewsRequests parses app page = [request].filter (fun request => parses request.url) ∧
      urlParameters request.url = [("sortBy", "publishedAt"),
        ("q", " OR ".intercalate interests), ("language", preferredLanguage app),
        ("page", toString page)].map some := by
  have hunreserved : ∀ interest ∈ interests, ∀ c ∈ interest.toList, unreserved c = true := by
    obtain ⟨_, hsome, hnames⟩ := hoffered .interests _ hinterests
    obtain rfl := Option.some.inj hsome
    intro interest hmem
    exact List.all_eq_true.mp (unreserved_interests interest (hnames interest hmem))
  refine ⟨⟨interests, preferredLanguage app, page⟩, ?_,
    (allNews_parameters_iff _ page hunreserved).mpr (plain_preferredLanguage hoffered)⟩
  have hstored : storedInterests app = some interests := by
    rw [storedInterests, UserRepository.fetch, hinterests]
    rfl
  rw [allNewsRequests_eq, hstored, List.filter_singleton]
  simp only
  cases parses _ <;> rfl

end Asked

/-- A device in step asks for what the document of its user will be once its own updates have
been applied. -/
def Followed (parses : String → Bool) {ι : Type} (w : World ι) : Prop :=
  ∀ i, (w.devices i).inStep = true → ∃ user document country interests,
    (w.devices i).app.currentUser = some user ∧
    ((w.devices i).updates user.uid).foldl Editors.updateData w.documents user.uid =
      some document ∧
    document.country = some (.dictionary country) ∧
    document.interests = some (.strings interests) ∧
    Asked parses (w.devices i).app country interests

theorem followed {parses : String → Bool} {ι : Type} {w : World ι} (hfaithful : w.Faithful)
    (hw : OfferedWorld w) : Followed parses w := by
  intro i hinStep
  obtain ⟨user, huser, hcastable, hmirrors⟩ := (hfaithful i).shows hinStep
  obtain ⟨country, hcountry⟩ := Option.isSome_iff_exists.mp hcastable.country
  obtain ⟨interests, hinterests⟩ := Option.isSome_iff_exists.mp hcastable.interests
  replace hcountry := eq_of_cast asDictionary_eq_some hcountry
  replace hinterests := eq_of_cast asStrings_eq_some hinterests
  refine ⟨user, _, country, interests, huser, hmirrors.symm, hcountry, hinterests, ?_⟩
  exact ⟨asked_topNews hcountry ((hw i).defaults .country _ hcountry),
    asked_allNews hinterests (hw i).defaults⟩

def userDocument (row : Nat) (interests : List String) : UserDocument where
  firstname := some (.string "Ana")
  lastname := some (.string "Petrova")
  country := some (.dictionary (Editors.country row))
  interests := some (.strings interests)

/-- The country and the interests are changed on two devices, which both read them back. -/
def movedAbroad : List (Action Bool) :=
  let served : Service := { signedIn := .ok reader, document := some (userDocument 5 ["sports"]) }
  let changed : Service := { document := some (userDocument 51 ["sports", "science"]) }
  [.on true (.start (.login "reader@news.com" "Secret12")), .on true (.deliver 0 served false),
    .on true (.deliver 0 served false),
    .on false (.start (.login "reader@news.com" "Secret12")), .on false (.deliver 0 served false),
    .on false (.deliver 0 served false), .on true (.closeDetails "Ana" "" (Editors.country 51)),
    .on false (.closeInterests (some ["sports", "science"])),
    .on false (.closeSettings true "de"), .apply true "reader" true, .apply false "reader" true,
    .launch true, .launch false, .on true (.deliver 0 changed false),
    .on false (.deliver 0 changed false)]

end NewsFlash.Requests.Account
