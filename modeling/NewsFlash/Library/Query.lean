import Mathlib.Data.List.Infix
import Mathlib.Data.List.TakeWhile

/-!
# Percent encoding and query strings

Percent decoding takes a text to the bytes it stands for and reads these as UTF-8. The query
of a URL is a list of parameters between ampersands, each a name and a value around its first
equals sign. A text that escapes every ampersand and percent sign comes back as it was, and
decoding never makes a text longer, so a text that is cut short does not come back.
-/

namespace NewsFlash.Library

/-! ## Percent decoding -/

def hexValue (c : Char) : Option Nat :=
  if '0' ≤ c ∧ c ≤ '9' then some (c.toNat - '0'.toNat)
  else if 'A' ≤ c ∧ c ≤ 'F' then some (c.toNat - 'A'.toNat + 10)
  else if 'a' ≤ c ∧ c ≤ 'f' then some (c.toNat - 'a'.toNat + 10)
  else none

/-- The bytes that a text stands for, if its escapes are well formed. -/
def percentBytes : List Char → Option (List UInt8)
  | [] => some []
  | c :: rest =>
      if c = '%' then
        match rest with
        | high :: low :: rest => do
            let high ← hexValue high
            let low ← hexValue low
            let bytes ← percentBytes rest
            some (UInt8.ofNat (16 * high + low) :: bytes)
        | _ => none
      else (percentBytes rest).map (String.utf8EncodeChar c ++ ·)

def percentDecode (text : List Char) : Option (List Char) :=
  (percentBytes text).bind fun bytes => bytes.toByteArray.utf8Decode?.map Array.toList

def percentEncode (allowed : Char → Bool) (escape : UInt8 → List Char) (text : List Char) :
    List Char :=
  text.flatMap fun c => if allowed c then [c] else (String.utf8EncodeChar c).flatMap escape

def Escapes (escape : UInt8 → List Char) : Prop :=
  ∀ b rest, percentBytes (escape b ++ rest) = (percentBytes rest).map (b :: ·)

section Decode

variable {text rest : List Char}

theorem percentBytes_cons {c : Char} (hc : c ≠ '%') :
    percentBytes (c :: rest) = (percentBytes rest).map (String.utf8EncodeChar c ++ ·) := by
  conv_lhs => unfold percentBytes
  exact if_neg hc

theorem percentBytes_append (htext : '%' ∉ text) :
    percentBytes (text ++ rest) =
      (percentBytes rest).map (text.flatMap String.utf8EncodeChar ++ ·) := by
  induction text with
  | nil => simp
  | cons c text ih =>
      rw [List.mem_cons, not_or] at htext
      rw [List.cons_append, percentBytes_cons (Ne.symm htext.1), ih htext.2, Option.map_map]
      simp [Function.comp_def, List.flatMap_cons]

theorem percentBytes_escapes {escape : UInt8 → List Char} (hescape : Escapes escape)
    (bytes : List UInt8) :
    percentBytes (bytes.flatMap escape ++ rest) = (percentBytes rest).map (bytes ++ ·) := by
  induction bytes with
  | nil => simp
  | cons b bytes ih =>
      rw [List.flatMap_cons, List.append_assoc, hescape, ih, Option.map_map]
      simp [Function.comp_def]

theorem percentDecode_of_bytes
    (h : percentBytes text = some (rest.flatMap String.utf8EncodeChar)) :
    percentDecode text = some rest := by
  have hutf8 : (rest.flatMap String.utf8EncodeChar).toByteArray.utf8Decode? =
      some rest.toArray := List.utf8Decode?_utf8Encode
  rw [percentDecode, h, Option.bind_some, hutf8]
  rfl

theorem percentBytes_plain (htext : '%' ∉ text) :
    percentBytes text = some (text.flatMap String.utf8EncodeChar) := by
  have hbytes : percentBytes (text ++ []) = _ := percentBytes_append htext
  rw [List.append_nil] at hbytes
  simp [hbytes, percentBytes]

theorem percentDecode_plain (htext : '%' ∉ text) : percentDecode text = some text :=
  percentDecode_of_bytes (percentBytes_plain htext)

/-- **Round trip.** An encoded text is decoded to the text. -/
theorem percentDecode_percentEncode {allowed : Char → Bool} {escape : UInt8 → List Char}
    (hescape : Escapes escape) (hpercent : allowed '%' = false) (text : List Char) :
    percentDecode (percentEncode allowed escape text) = some text := by
  apply percentDecode_of_bytes
  induction text with
  | nil => rfl
  | cons c text ih =>
      rw [percentEncode, List.flatMap_cons, List.flatMap_cons]
      cases hallowed : allowed c with
      | true =>
          have hc : c ≠ '%' := by
            rintro rfl
            rw [hpercent] at hallowed
            cases hallowed
          rw [if_pos rfl, List.singleton_append, percentBytes_cons hc]
          exact congrArg (Option.map _) ih
      | false =>
          rw [if_neg Bool.false_ne_true, percentBytes_escapes hescape]
          exact congrArg (Option.map _) ih

/-! ## Decoding and lengths -/

def utf8Length (text : List Char) : Nat := (text.flatMap String.utf8EncodeChar).length

theorem utf8Length_append (text rest : List Char) :
    utf8Length (text ++ rest) = utf8Length text + utf8Length rest := by
  rw [utf8Length, List.flatMap_append, List.length_append]
  rfl

theorem length_le_utf8Length (text : List Char) : text.length ≤ utf8Length text := by
  induction text with
  | nil => exact Nat.le_refl 0
  | cons c text ih =>
      have hc : 0 < (String.utf8EncodeChar c).length :=
        List.length_pos_iff.mpr String.utf8EncodeChar_ne_nil
      rw [utf8Length, List.flatMap_cons, List.length_append, List.length_cons]
      change text.length ≤ (text.flatMap String.utf8EncodeChar).length at ih
      omega

theorem length_percentBytes {bytes : List UInt8} (h : percentBytes text = some bytes) :
    bytes.length ≤ utf8Length text ∧ ('%' ∈ text → bytes.length < utf8Length text) := by
  fun_induction percentBytes text generalizing bytes with
  | case1 =>
      obtain rfl := Option.some.inj h
      exact ⟨Nat.le_refl _, fun hmem => by cases hmem⟩
  | case2 high low rest ih =>
      obtain ⟨_, -, h⟩ := Option.bind_eq_some_iff.mp h
      obtain ⟨_, -, h⟩ := Option.bind_eq_some_iff.mp h
      obtain ⟨tail, htail, h⟩ := Option.bind_eq_some_iff.mp h
      obtain rfl := Option.some.inj h
      have hlength := length_le_utf8Length ['%', high, low]
      have happend := utf8Length_append ['%', high, low] rest
      simp only [List.length_cons, List.length_nil, List.cons_append, List.nil_append] at *
      have htail' := (ih htail).1
      exact ⟨by omega, fun _ => by omega⟩
  | case3 => cases h
  | case4 c rest hc ih =>
      obtain ⟨tail, htail, rfl⟩ := Option.map_eq_some_iff.mp h
      have hc' : '%' ∈ c :: rest → '%' ∈ rest := fun hmem =>
        (List.mem_cons.mp hmem).resolve_left (Ne.symm hc)
      have happend := utf8Length_append [c] rest
      have hsingle : utf8Length [c] = (String.utf8EncodeChar c).length := by
        simp [utf8Length]
      rw [List.singleton_append, hsingle] at happend
      obtain ⟨hle, hlt⟩ := ih htail
      rw [List.length_append, happend]
      exact ⟨by omega, fun hmem => by have := hlt (hc' hmem); omega⟩

/-- What decodes to a text that it is a prefix of is that text, without an escape. -/
theorem eq_of_percentDecode {whole : List Char} (hinitial : text <+: whole)
    (h : percentDecode text = some whole) : text = whole ∧ '%' ∉ whole := by
  obtain ⟨bytes, hbytes, h⟩ := Option.bind_eq_some_iff.mp h
  obtain ⟨chars, hchars, rfl⟩ := Option.map_eq_some_iff.mp h
  have hutf8 : bytes.toByteArray = chars.toList.utf8Encode := by
    have hget := ByteArray.utf8Encode_get_utf8Decode? (b := bytes.toByteArray)
      (h := by rw [hchars]; rfl)
    simpa [hchars] using hget.symm
  have hlength : bytes.length = utf8Length chars.toList := by
    have hsize := congrArg ByteArray.size hutf8
    simpa [List.utf8Encode, utf8Length] using hsize
  obtain ⟨rest, hrest⟩ := hinitial
  have happend := utf8Length_append text rest
  rw [hrest] at happend
  have hrest' := length_le_utf8Length rest
  obtain ⟨hle, hlt⟩ := length_percentBytes hbytes
  have hnil : rest = [] := List.length_eq_zero_iff.mp (by omega)
  rw [hnil, List.append_nil] at hrest
  refine ⟨hrest, fun hmem => ?_⟩
  rw [← hrest] at hmem hlength
  have := hlt hmem
  omega

end Decode

/-! ## The parameters of a query -/

/-- The text between the first question mark of a URL and its fragment. -/
def queryOf (url : List Char) : List Char :=
  ((url.dropWhile (· ≠ '?')).drop 1).takeWhile (· ≠ '#')

def parameter (part : List Char) : Option (List Char × List Char) :=
  (percentDecode (part.takeWhile (· ≠ '='))).bind fun name =>
    (percentDecode ((part.dropWhile (· ≠ '=')).drop 1)).map fun value => (name, value)

/-- The parameters in their order; `none` is one with a malformed escape. -/
def parameters (query : List Char) : List (Option (List Char × List Char)) :=
  (query.splitOn '&').map parameter

section Parameters

variable {part name value tail : List Char}

theorem queryOf_append {base : List Char} (hbase : '?' ∉ base) (query : List Char) :
    queryOf (base ++ '?' :: query) = query.takeWhile (· ≠ '#') := by
  have hdrop : (base ++ '?' :: query).dropWhile (· ≠ '?') = '?' :: query := by
    rw [List.dropWhile_append_of_pos fun c hc => decide_eq_true (ne_of_mem_of_not_mem hc hbase)]
    simp
  rw [queryOf, hdrop, List.drop_succ_cons, List.drop_zero]

theorem takeWhile_ne_of_not_mem {c : Char} (h : c ∉ part) : part.takeWhile (· ≠ c) = part :=
  List.takeWhile_eq_self_iff.mpr fun _ hd => decide_eq_true (ne_of_mem_of_not_mem hd h)

theorem parameter_append (hname : '=' ∉ name) (value : List Char) :
    parameter (name ++ '=' :: value) = (percentDecode name).bind fun name =>
      (percentDecode value).map fun value => (name, value) := by
  have hne : ∀ c ∈ name, decide (c ≠ '=') = true := fun c hc =>
    decide_eq_true (ne_of_mem_of_not_mem hc hname)
  have htake : (name ++ '=' :: value).takeWhile (· ≠ '=') = name := by
    rw [List.takeWhile_append_of_pos hne]
    simp
  have hdrop : (name ++ '=' :: value).dropWhile (· ≠ '=') = '=' :: value := by
    rw [List.dropWhile_append_of_pos hne]
    simp
  rw [parameter, htake, hdrop, List.drop_succ_cons, List.drop_zero]

theorem parameters_cons (hpart : '&' ∉ part) :
    parameters (part ++ '&' :: tail) = parameter part :: parameters tail := by
  rw [parameters, List.splitOn_append_cons_self_of_not_mem hpart, List.map_cons]
  rfl

theorem parameters_singleton (hpart : '&' ∉ part) : parameters part = [parameter part] := by
  rw [parameters, List.splitOn_eq_singleton hpart, List.map_singleton]

theorem not_mem_of_parameters {p : Option (List Char × List Char)}
    (h : parameters part = [p]) : '&' ∉ part := by
  intro hmem
  obtain ⟨before, after, rfl⟩ := List.append_of_mem hmem
  rw [parameters, List.splitOn_append_cons_self] at h
  have hlength := congrArg List.length h
  have hbefore := List.length_pos_iff.mpr (List.splitOn_ne_nil '&' before)
  have hafter := List.length_pos_iff.mpr (List.splitOn_ne_nil '&' after)
  rw [List.length_map, List.length_append, List.length_singleton] at hlength
  omega

theorem head?_parameters (query : List Char) :
    (parameters query).head? = some (parameter (query.takeWhile (· ≠ '&'))) := by
  by_cases hmem : '&' ∈ query
  · obtain ⟨before, after, rfl, hbefore⟩ := List.eq_append_cons_of_mem hmem
    have htake : (before ++ '&' :: after).takeWhile (· ≠ '&') = before := by
      rw [List.takeWhile_append_of_pos fun c hc =>
        decide_eq_true (ne_of_mem_of_not_mem hc hbefore)]
      simp
    rw [parameters_cons hbefore, htake]
    rfl
  · rw [parameters_singleton hmem, takeWhile_ne_of_not_mem hmem]
    rfl

theorem takeWhile_append_stop {p : Char → Bool} {stop : Char} (hstop : p stop = false)
    (value tail : List Char) : (value ++ stop :: tail).takeWhile p = value.takeWhile p := by
  rw [List.takeWhile_append, List.takeWhile_cons_of_neg (by simp [hstop]), List.append_nil]
  split
  · next hlength => exact ((List.takeWhile_prefix p).eq_of_length hlength).symm
  · rfl

/-- A value that is written as it is and comes back as it was has no ampersand, number sign
or percent sign. -/
theorem plain_of_head? {decoded : List Char} (hname : '=' ∉ name) (hname' : '&' ∉ name)
    (hname'' : '#' ∉ name)
    (h : (parameters (((name ++ '=' :: value) ++ '&' :: tail).takeWhile (· ≠ '#'))).head? =
      some (some (decoded, value))) :
    '&' ∉ value ∧ '#' ∉ value ∧ '%' ∉ value := by
  have hpart : (((name ++ '=' :: value) ++ '&' :: tail).takeWhile (· ≠ '#')).takeWhile (· ≠ '&') =
      name ++ '=' :: value.takeWhile fun c => c ≠ '&' ∧ c ≠ '#' := by
    have hkept : ∀ c ∈ name, decide (decide (c ≠ '&') ∧ decide (c ≠ '#')) = true := by
      intro c hc
      simp [ne_of_mem_of_not_mem hc hname', ne_of_mem_of_not_mem hc hname'']
    rw [List.takeWhile_takeWhile, takeWhile_append_stop (by decide),
      List.takeWhile_append_of_pos hkept, List.takeWhile_cons_of_pos (by decide)]
    simp only [decide_eq_true_eq]
  rw [head?_parameters, hpart, parameter_append hname] at h
  obtain ⟨_, -, h⟩ := Option.bind_eq_some_iff.mp (Option.some.inj h)
  obtain ⟨whole, hdecode, heq⟩ := Option.map_eq_some_iff.mp h
  obtain rfl : whole = value := (Prod.mk.inj heq).2
  obtain ⟨hwhole, hpercent⟩ := eq_of_percentDecode (List.takeWhile_prefix _) hdecode
  have hall := List.takeWhile_eq_self_iff.mp hwhole
  refine ⟨fun hmem => ?_, fun hmem => ?_, hpercent⟩
  · simpa using hall _ hmem
  · simpa using hall _ hmem

end Parameters

end NewsFlash.Library
