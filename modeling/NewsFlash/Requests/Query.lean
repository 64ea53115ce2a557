import NewsFlash.Library.Query
import NewsFlash.Models.Constants
import NewsFlash.Models.Networking

/-!
# The queries of the requests

The search text is escaped before it becomes the last parameter of its query, with a set of
allowed characters that has the ampersand in it. The interests are joined by an escaped
separator, and the stored language is put in as it is. `Plain` is what a language has to be
for that.
-/

namespace NewsFlash.Requests

open NewsFlash.Library NewsFlash.Models NewsFlash.Models.Networking

/-! ## What the server reads -/

/-- The parameters of the address of a request. -/
def urlParameters (url : String) : List (Option (String × String)) :=
  (parameters (queryOf url.toList)).map
    (Option.map fun (name, value) => (String.ofList name, String.ofList value))

/-- Such a text is a parameter's value as it stands. -/
def Plain (text : List Char) : Prop := '&' ∉ text ∧ '#' ∉ text ∧ '%' ∉ text

instance (text : List Char) : Decidable (Plain text) := inferInstanceAs (Decidable (_ ∧ _))

def field (name : String) (value : List Char) : List Char := name.toList ++ '=' :: value

def unreserved (c : Char) : Bool := c.isAlphanum || "-._~".toList.contains c

/-- A search for the text sends one request, if its address is a URL, with these four
parameters. -/
def SearchRoundTrips (app : App) (page : Nat) (q : String) : Prop :=
  ∃ request : SearchRequest,
    (∀ parses, ((getSearchResults parses page q : Callback App SearchRequest Unit
      Unit).exec app).2.issued = [request].filter fun request => parses request.url) ∧
    urlParameters request.url = [("language", preferredLanguage app), ("sortBy", "publishedAt"),
      ("page", toString page), ("qInTitle", q)].map some

/-- So do the stored interests, if these are made of unreserved characters. -/
def AllNewsRoundTrips (app : App) (page : Nat) : Prop :=
  ∀ interests ∈ storedInterests app,
    (∀ interest ∈ interests, ∀ c ∈ interest.toList, unreserved c = true) →
    ∃ request : AllNewsRequest,
      (∀ parses, ((getAllNews parses page : Callback App AllNewsRequest Unit
        Unit).exec app).2.issued = [request].filter fun request => parses request.url) ∧
      urlParameters request.url = [("sortBy", "publishedAt"), ("q", " OR ".intercalate interests),
        ("language", preferredLanguage app), ("page", toString page)].map some

/-! ## The escapes -/

theorem escapes_percentEncodeByte : Escapes percentEncodeByte := by
  have hdigit : ∀ n < 16, hexValue (hexDigit n) = some n := by decide
  intro b rest
  have hb : b.toNat < 256 := b.toNat_lt
  have hbyte : UInt8.ofNat (16 * (b.toNat / 16) + b.toNat % 16) = b := by
    rw [Nat.div_add_mod, UInt8.ofNat_toNat]
  rw [percentEncodeByte, List.cons_append, List.cons_append, List.cons_append, List.nil_append,
    percentBytes, if_pos rfl, hdigit _ (by omega), hdigit _ (by omega)]
  cases percentBytes rest with
  | none => rfl
  | some bytes =>
      change some (_ :: bytes) = some (b :: bytes)
      rw [hbyte]

theorem toList_addingPercentEncoding (q : String) :
    (addingPercentEncoding q).toList = percentEncode urlHostAllowed percentEncodeByte q.toList := by
  rw [addingPercentEncoding, String.toList_ofList]
  rfl

theorem mem_percentEncode {c : Char} {text : List Char}
    (hc : c ≠ '%' ∧ c ∉ "0123456789ABCDEF".toList) :
    c ∈ percentEncode urlHostAllowed percentEncodeByte text ↔
      c ∈ text ∧ urlHostAllowed c = true := by
  have hdigit : ∀ n, hexDigit n ∈ "0123456789ABCDEF".toList := by
    intro n
    unfold hexDigit
    rw [List.getD_eq_getElem?_getD]
    cases hn : "0123456789ABCDEF".toList[n]? with
    | none => decide
    | some d => exact List.mem_of_getElem? hn
  have hescape : ∀ b, c ∉ percentEncodeByte b := by
    intro b hmem
    simp only [percentEncodeByte, List.mem_cons, List.not_mem_nil, or_false] at hmem
    rcases hmem with rfl | rfl | rfl
    · exact hc.1 rfl
    · exact hc.2 (hdigit _)
    · exact hc.2 (hdigit _)
  rw [percentEncode, List.mem_flatMap]
  constructor
  · rintro ⟨d, hd, hmem⟩
    split at hmem
    · next hallowed =>
        obtain rfl := List.mem_singleton.mp hmem
        exact ⟨hd, hallowed⟩
    · obtain ⟨b, -, hb⟩ := List.mem_flatMap.mp hmem
      exact absurd hb (hescape b)
  · rintro ⟨hmem, hallowed⟩
    exact ⟨c, hmem, by rw [if_pos hallowed]; exact List.mem_singleton_self c⟩

/-- The joined interests stand for the interests with the separator between them. -/
theorem percentDecode_joinInterests {interests : List String}
    (h : ∀ interest ∈ interests, '%' ∉ interest.toList) :
    percentDecode (joinInterests interests).toList =
      some (" OR ".intercalate interests).toList := by
  have hspace : ∀ rest, percentBytes ('%' :: '2' :: '0' :: rest) =
      (percentBytes rest).map (String.utf8EncodeChar ' ' ++ ·) := by
    intro rest
    rw [percentBytes, if_pos rfl]
    cases percentBytes rest <;> rfl
  have hseparator : ∀ rest, percentBytes ("%20OR%20".toList ++ rest) =
      (percentBytes rest).map (" OR ".toList.flatMap String.utf8EncodeChar ++ ·) := by
    intro rest
    change percentBytes ('%' :: '2' :: '0' :: 'O' :: 'R' :: '%' :: '2' :: '0' :: rest) = _
    rw [hspace, percentBytes_cons (by decide), percentBytes_cons (by decide), hspace]
    simp only [Option.map_map]
    rfl
  apply percentDecode_of_bytes
  fun_induction joinInterests interests with
  | case1 => rfl
  | case2 interest =>
      have hbytes := percentBytes_plain (h interest (List.mem_singleton_self _))
      simpa using hbytes
  | case3 interest rest hrest ih =>
      have hrest : rest.map String.toList ≠ [] := fun hnil => hrest (List.map_eq_nil_iff.mp hnil)
      have ih := ih fun other hmem => h other (List.mem_cons_of_mem _ hmem)
      rw [String.toList_append, String.toList_append, List.append_assoc,
        percentBytes_append (h interest List.mem_cons_self), hseparator, ih,
        String.toList_intercalate, String.toList_intercalate, List.map_cons,
        List.intercalate_cons_of_ne_nil hrest]
      simp only [Option.map_some, List.flatMap_append, List.append_assoc]

theorem plain_toString (page : Nat) : Plain (toString page).toList := by
  have hdigits : ∀ c ∈ (toString page).toList, c.isDigit = true := by
    intro c hc
    rw [Nat.toString_eq_repr, Nat.repr, String.toList_ofList] at hc
    exact Nat.isDigit_of_mem_toDigits (by decide) (by decide) hc
  exact ⟨fun hmem => absurd (hdigits _ hmem) (by decide),
    fun hmem => absurd (hdigits _ hmem) (by decide),
    fun hmem => absurd (hdigits _ hmem) (by decide)⟩

/-! ## The two queries -/

section Queries

variable {name value tail : List Char}

theorem urlParameters_eq_iff {url : String} {expected : List (String × String)} :
    urlParameters url = expected.map some ↔
      parameters (queryOf url.toList) = expected.map fun p => some (p.1.toList, p.2.toList) := by
  have hinjective : Function.Injective (Option.map fun p : List Char × List Char =>
      (String.ofList p.1, String.ofList p.2)) := by
    apply Option.map_injective
    rintro ⟨name, value⟩ ⟨name', value'⟩ h
    obtain ⟨hname, hvalue⟩ := Prod.mk.inj h
    exact Prod.ext (String.ofList_injective hname) (String.ofList_injective hvalue)
  have hexpected : expected.map some = (expected.map fun p =>
      some (p.1.toList, p.2.toList)).map (Option.map fun p : List Char × List Char =>
        (String.ofList p.1, String.ofList p.2)) := by
    simp [Function.comp_def]
  rw [hexpected]
  exact (List.map_injective_iff.mpr hinjective).eq_iff

theorem not_mem_field {c : Char} {name : String} (hname : c ∉ name.toList) (hc : c ≠ '=')
    (hvalue : c ∉ value) : c ∉ field name value := by
  rw [field, List.mem_append, List.mem_cons, not_or, not_or]
  exact ⟨hname, hc, hvalue⟩

theorem parameters_field {name : String} {decoded : List Char}
    (hname : '=' ∉ name.toList ∧ Plain name.toList) (hvalue : '&' ∉ value ∧ '#' ∉ value)
    (hdecode : percentDecode value = some decoded) (tail : List Char) :
    parameters ((field name value ++ '&' :: tail).takeWhile (· ≠ '#')) =
      some (name.toList, decoded) :: parameters (tail.takeWhile (· ≠ '#')) := by
  have hkept : ∀ c ∈ field name value, decide (c ≠ '#') = true := fun c hc =>
    decide_eq_true (ne_of_mem_of_not_mem hc (not_mem_field hname.2.2.1 (by decide) hvalue.2))
  rw [List.takeWhile_append_of_pos hkept, List.takeWhile_cons_of_pos (by decide),
    parameters_cons (not_mem_field hname.2.1 (by decide) hvalue.1), field,
    parameter_append hname.1, hdecode, percentDecode_plain hname.2.2.2]
  rfl

theorem parameters_field_plain {name : String} (hname : '=' ∉ name.toList ∧ Plain name.toList)
    (hvalue : Plain value) (tail : List Char) :
    parameters ((field name value ++ '&' :: tail).takeWhile (· ≠ '#')) =
      some (name.toList, value) :: parameters (tail.takeWhile (· ≠ '#')) :=
  parameters_field hname ⟨hvalue.1, hvalue.2.1⟩ (percentDecode_plain hvalue.2.2) tail

theorem parameters_last {name : String} (hname : '=' ∉ name.toList ∧ Plain name.toList)
    {decoded : List Char} (hvalue : '#' ∉ value) (hdecode : percentDecode value = some decoded) :
    parameters ((field name value).takeWhile (· ≠ '#')) = [some (name.toList, decoded)] ↔
      '&' ∉ value := by
  rw [takeWhile_ne_of_not_mem (not_mem_field hname.2.2.1 (by decide) hvalue)]
  constructor
  · intro h hmem
    exact not_mem_of_parameters h (List.mem_append_right _ (List.mem_cons_of_mem _ hmem))
  · intro hvalue
    rw [parameters_singleton (not_mem_field hname.2.1 (by decide) hvalue), field,
      parameter_append hname.1, hdecode, percentDecode_plain hname.2.2.2]
    rfl

/-- A value that comes back as it was written is a plain one. -/
theorem plain_of_parameters {name : String} (hname : '=' ∉ name.toList ∧ Plain name.toList)
    {others : List (Option (List Char × List Char))}
    (h : parameters ((field name value ++ '&' :: tail).takeWhile (· ≠ '#')) =
      some (name.toList, value) :: others) : Plain value :=
  plain_of_head? hname.1 hname.2.1 hname.2.2.1 (congrArg List.head? h)

/-! ## The two requests -/

theorem toList_searchUrl (language : String) (page : Nat) (q : String) :
    (SearchRequest.url ⟨language, page, q⟩).toList =
      "https://newsapi.org/v2/everything".toList ++ '?' :: (field "language" language.toList ++
        '&' :: (field "sortBy" "publishedAt".toList ++ '&' :: (field "page" (toString page).toList ++
          '&' :: field "qInTitle" (addingPercentEncoding q).toList))) := by
  have hbase : "https://newsapi.org/v2/everything?language=".toList =
      "https://newsapi.org/v2/everything".toList ++ '?' :: ("language".toList ++ ['=']) := by
    decide +kernel
  have hmiddle : "&sortBy=publishedAt&page=".toList =
      '&' :: (field "sortBy" "publishedAt".toList ++ '&' :: ("page".toList ++ ['='])) := by
    decide +kernel
  have hlast : "&qInTitle=".toList = '&' :: ("qInTitle".toList ++ ['=']) := by decide +kernel
  unfold SearchRequest.url
  simp only [String.toList_append]
  generalize (addingPercentEncoding q).toList = text
  generalize (toString page).toList = page
  rw [hbase, hmiddle, hlast]
  simp only [field, List.append_assoc, List.cons_append, List.nil_append]

theorem search_parameters_iff (language : String) (page : Nat) (q : String) :
    urlParameters (SearchRequest.url ⟨language, page, q⟩) = [("language", language),
      ("sortBy", "publishedAt"), ("page", toString page), ("qInTitle", q)].map some ↔
      Plain language.toList ∧ '&' ∉ q.toList := by
  have hencoded : ∀ c, c ≠ '%' ∧ c ∉ "0123456789ABCDEF".toList →
      (c ∈ (addingPercentEncoding q).toList ↔ c ∈ q.toList ∧ urlHostAllowed c = true) := by
    intro c hc
    rw [toList_addingPercentEncoding, mem_percentEncode hc]
  have hampersand := hencoded '&' (by decide)
  have hnumber : '#' ∉ (addingPercentEncoding q).toList := fun hmem =>
    absurd ((hencoded '#' (by decide)).mp hmem).2 (by decide)
  have hdecode : percentDecode (addingPercentEncoding q).toList = some q.toList := by
    rw [toList_addingPercentEncoding]
    exact percentDecode_percentEncode escapes_percentEncodeByte (by decide) q.toList
  rw [urlParameters_eq_iff, toList_searchUrl, queryOf_append (by decide)]
  have hpage := plain_toString page
  generalize (addingPercentEncoding q).toList = text at hampersand hnumber hdecode ⊢
  generalize toString page = page at hpage ⊢
  simp only [List.map_cons, List.map_nil]
  constructor
  · intro h
    have hlanguage : Plain language.toList := plain_of_parameters (by decide) h
    rw [parameters_field_plain (by decide) hlanguage,
      parameters_field_plain (by decide) (by decide), parameters_field_plain (by decide) hpage] at h
    simp only [List.cons.injEq, true_and] at h
    have htext := (parameters_last (by decide) hnumber hdecode).mp h
    exact ⟨hlanguage, fun hmem => htext (hampersand.mpr ⟨hmem, by decide⟩)⟩
  · rintro ⟨hlanguage, hq⟩
    have htext : '&' ∉ text := fun hmem => hq (hampersand.mp hmem).1
    rw [parameters_field_plain (by decide) hlanguage,
      parameters_field_plain (by decide) (by decide), parameters_field_plain (by decide) hpage,
      (parameters_last (by decide) hnumber hdecode).mpr htext]

theorem toList_allNewsUrl (interests : List String) (language : String) (page : Nat) :
    (AllNewsRequest.url ⟨interests, language, page⟩).toList =
      "https://newsapi.org/v2/everything".toList ++ '?' :: (field "sortBy" "publishedAt".toList ++
        '&' :: (field "q" (joinInterests interests).toList ++ '&' ::
          (field "language" language.toList ++ '&' :: field "page" (toString page).toList))) := by
  have hbase : "https://newsapi.org/v2/everything?sortBy=publishedAt&q=".toList =
      "https://newsapi.org/v2/everything".toList ++ '?' ::
        (field "sortBy" "publishedAt".toList ++ '&' :: ("q".toList ++ ['='])) := by
    decide +kernel
  have hmiddle : "&language=".toList = '&' :: ("language".toList ++ ['=']) := by decide +kernel
  have hlast : "&page=".toList = '&' :: ("page".toList ++ ['=']) := by decide +kernel
  unfold AllNewsRequest.url
  simp only [String.toList_append]
  generalize (joinInterests interests).toList = text
  generalize (toString page).toList = page
  rw [hbase, hmiddle, hlast]
  simp only [field, List.append_assoc, List.cons_append, List.nil_append]

theorem mem_joinInterests {c : Char} {interests : List String}
    (h : c ∈ (joinInterests interests).toList) :
    c ∈ "%20OR%20".toList ∨ ∃ interest ∈ interests, c ∈ interest.toList := by
  fun_induction joinInterests interests with
  | case1 => cases h
  | case2 interest => exact Or.inr ⟨interest, List.mem_singleton_self _, h⟩
  | case3 interest rest _ ih =>
      simp only [String.toList_append, List.mem_append] at h
      rcases h with (hmem | hmem) | hmem
      · exact Or.inr ⟨interest, List.mem_cons_self, hmem⟩
      · exact Or.inl hmem
      · refine (ih hmem).imp_right ?_
        rintro ⟨other, hother, hc⟩
        exact ⟨other, List.mem_cons_of_mem _ hother, hc⟩

theorem allNews_parameters_iff {interests : List String} (language : String) (page : Nat)
    (hinterests : ∀ interest ∈ interests, ∀ c ∈ interest.toList, unreserved c = true) :
    urlParameters (AllNewsRequest.url ⟨interests, language, page⟩) =
      [("sortBy", "publishedAt"), ("q", " OR ".intercalate interests),
        ("language", language), ("page", toString page)].map some ↔ Plain language.toList := by
  have hreserved : ∀ c, unreserved c = false → ∀ interest ∈ interests, c ∉ interest.toList := by
    intro c hc interest hmem hmem'
    rw [hinterests interest hmem c hmem'] at hc
    cases hc
  have hjoined : ∀ c, unreserved c = false → c ∉ "%20OR%20".toList →
      c ∉ (joinInterests interests).toList := by
    intro c hc hseparator hmem
    rcases mem_joinInterests hmem with hmem | ⟨interest, hinterest, hmem⟩
    · exact hseparator hmem
    · exact hreserved c hc interest hinterest hmem
  have hampersand := hjoined '&' (by decide) (by decide)
  have hnumber := hjoined '#' (by decide) (by decide)
  have hdecode := percentDecode_joinInterests (hreserved '%' (by decide))
  rw [urlParameters_eq_iff, toList_allNewsUrl, queryOf_append (by decide)]
  have hpage := plain_toString page
  generalize (joinInterests interests).toList = text at hampersand hnumber hdecode ⊢
  generalize toString page = page at hpage ⊢
  simp only [List.map_cons, List.map_nil]
  rw [parameters_field_plain (by decide) (by decide),
    parameters_field (by decide) ⟨hampersand, hnumber⟩ hdecode]
  simp only [List.cons.injEq, true_and]
  constructor
  · exact plain_of_parameters (by decide)
  · intro hlanguage
    rw [parameters_field_plain (by decide) hlanguage,
      (parameters_last (by decide) hpage.2.1 (percentDecode_plain hpage.2.2)).mpr hpage.1]

end Queries

/-! ## Which queries come back -/

theorem issued_search (app : App) (page : Nat) (q : String) (parses : String → Bool) :
    ((getSearchResults parses page q : Callback App SearchRequest Unit Unit).exec app).2.issued =
      [⟨preferredLanguage app, page, q⟩].filter fun request => parses request.url := by
  rw [Callback.exec_apply, getSearchResults_apply, List.filter_singleton]
  split
  · next hparses => rw [hparses]; rfl
  · next hparses => rw [Bool.eq_false_iff.mpr hparses]; rfl

theorem searchRoundTrips_iff (app : App) (page : Nat) (q : String) :
    SearchRoundTrips app page q ↔ Plain (preferredLanguage app).toList ∧ '&' ∉ q.toList := by
  rw [← search_parameters_iff _ page]
  constructor
  · rintro ⟨request, hissued, hparameters⟩
    -- the only request that is sent wherever its address is a URL
    obtain rfl : request = ⟨preferredLanguage app, page, q⟩ := by
      have h := (hissued fun _ => true).symm.trans (issued_search app page q fun _ => true)
      simpa using h
    exact hparameters
  · intro h
    exact ⟨_, issued_search app page q, h⟩

theorem allNewsRoundTrips_of_plain {app : App} (hlanguage : Plain (preferredLanguage app).toList)
    (page : Nat) : AllNewsRoundTrips app page := by
  intro interests hstored hinterests
  refine ⟨⟨interests, preferredLanguage app, page⟩, fun parses => ?_,
    (allNews_parameters_iff _ page hinterests).mpr hlanguage⟩
  rw [Callback.exec_apply, getAllNews_apply, Option.mem_def.mp hstored, List.filter_singleton]
  simp only
  split
  · next hparses => rw [hparses]; rfl
  · next hparses => rw [Bool.eq_false_iff.mpr hparses]; rfl

theorem plain_languages : ∀ code ∈ Constants.Languages.short, Plain code.toList := by decide

/-- **Queries.** For every stored profile, page and search text, both requests come back as the
parameters that they were made of exactly where the text has no ampersand and the language is
plain. -/
theorem queries_roundTrip (app : App) (page : Nat) (q : String) :
    (SearchRoundTrips app page q ∧ AllNewsRoundTrips app page) ↔
      Plain (preferredLanguage app).toList ∧ '&' ∉ q.toList := by
  rw [searchRoundTrips_iff]
  constructor
  · exact And.left
  · intro h
    exact ⟨h, allNewsRoundTrips_of_plain h.1 page⟩

def englishReader : App where
  defaults := UserRepository.store .resultLanguage (.string "en") fun _ => none

theorem query_splits :
    ¬ ∀ (app : App) (page : Nat) (q : String),
      preferredLanguage app ∈ Constants.Languages.short →
        SearchRoundTrips app page q ∧ AllNewsRoundTrips app page := by
  intro h
  have hsearch := (h englishReader 1 "R&D" (by decide)).1
  rw [searchRoundTrips_iff] at hsearch
  exact hsearch.2 (by decide)

end NewsFlash.Requests
