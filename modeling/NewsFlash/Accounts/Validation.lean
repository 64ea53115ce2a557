import NewsFlash.Library.Regex
import NewsFlash.Models.Authentication
import NewsFlash.Models.Text

/-!
# The forms of the sign-up and the login

A form is validated when its button is pressed, and what is sent are the trimmed texts of its
fields. Both patterns are compared with plain descriptions of the texts that match them. The
pattern of the e-mail is given the text as it was typed.
-/

namespace NewsFlash.Accounts.Validation

open NewsFlash.Library NewsFlash.Models NewsFlash.Models.Authentication

/-! ## Classes of characters -/

def range (low high : Char) (c : Char) : Bool :=
  low.toNat ≤ c.toNat && c.toNat ≤ high.toNat

def digit (c : Char) : Bool := range '0' '9' c
def lower (c : Char) : Bool := range 'a' 'z' c
def upper (c : Char) : Bool := range 'A' 'Z' c
def letter (c : Char) : Bool := upper c || lower c
def alphanumeric (c : Char) : Bool := letter c || digit c

/-- `[A-Z0-9a-z._%+-]` -/
def localCharacter (c : Char) : Bool := alphanumeric c || "._%+-".toList.contains c

/-- `[A-Za-z0-9.-]` -/
def domainCharacter (c : Char) : Bool := alphanumeric c || ".-".toList.contains c

def passwordCharacter (c : Char) : Bool :=
  alphanumeric c || "!@#$%^&*()-_=+\x7b\x7d|?>.<,:;~`\u2019".toList.contains c

def decimalZeros : List Nat :=
  [0x30, 0x660, 0x6f0, 0x7c0, 0x966, 0x9e6, 0xa66, 0xae6, 0xb66, 0xbe6, 0xc66, 0xce6, 0xd66,
    0xde6, 0xe50, 0xed0, 0xf20, 0x1040, 0x1090, 0x17e0, 0x1810, 0x1946, 0x19d0, 0x1a80, 0x1a90,
    0x1b50, 0x1bb0, 0x1c40, 0x1c50, 0xa620, 0xa8d0, 0xa900, 0xa9d0, 0xa9f0, 0xaa50, 0xabf0,
    0xff10, 0x104a0, 0x10d30, 0x11066, 0x110f0, 0x11136, 0x111d0, 0x112f0, 0x11450, 0x114d0,
    0x11650, 0x116c0, 0x11730, 0x118e0, 0x11950, 0x11c50, 0x11d50, 0x11da0, 0x16a60, 0x16ac0,
    0x16b50, 0x1d7ce, 0x1d7d8, 0x1d7e2, 0x1d7ec, 0x1d7f6, 0x1e140, 0x1e2f0, 0x1e950, 0x1fbf0]

/-- `\d` -/
def decimalDigit (c : Char) : Bool :=
  decimalZeros.any fun first => decide (first ≤ c.toNat) && decide (c.toNat ≤ first + 9)

def lineTerminators : List Char :=
  ['\n', '\x0b', '\x0c', '\r', '\u0085', '\u2028', '\u2029']

def anyCharacter (c : Char) : Bool := !lineTerminators.contains c

/-! ## The patterns -/

/-- `[A-Z0-9a-z._%+-]+@[A-Za-z0-9.-]+\.[A-Za-z]{2,64}` -/
def emailRegEx : Regex Char :=
  .seq (.rep localCharacter 1 none) (.seq (.one (· = '@')) (.seq (.rep domainCharacter 1 none)
    (.seq (.one (· = '.')) (.rep letter 2 (some 64)))))

/-- `(?=.*c)` for a class `c` -/
def somewhere (allowed : Char → Bool) : Regex Char :=
  .lookahead (.seq (.rep anyCharacter 0 none) (.one allowed))

/-- `^(?=.*\d)(?=.*[a-z])(?=.*[A-Z])[…]{8,}$` with the class of the password; `$` also matches
before a line terminator at the end. -/
def passwordRegex : Regex Char :=
  .seq .start (.seq (somewhere decimalDigit) (.seq (somewhere lower) (.seq (somewhere upper)
    (.seq (.rep passwordCharacter 8 none)
      (.stop (['\r', '\n'] :: lineTerminators.map fun c => [c]))))))

def isValidEmail (str : String) : Bool := emailRegEx.FullMatch str.toList

def isValidPassword (str : String) : Bool := passwordRegex.FullMatch str.toList

/-! ## The forms -/

structure Form where
  firstName : String
  lastName : String
  email : String
  password : String
deriving DecidableEq, Repr

def Form.trimmed (form : Form) : Form where
  firstName := trimmingCharacters form.firstName
  lastName := trimmingCharacters form.lastName
  email := trimmingCharacters form.email
  password := trimmingCharacters form.password

namespace SignUpBasicsViewController

def validateFields (form : Form) : Option String :=
  if trimmingCharacters form.firstName = "" ∨ trimmingCharacters form.lastName = "" ∨
      trimmingCharacters form.email = "" ∨ trimmingCharacters form.password = "" then
    some "All fields are required."
  else if !isValidPassword (trimmingCharacters form.password) then
    some "You should choose a better password."
  else if !isValidEmail form.email then
    some "You should enter a valid email address."
  else none

def nextButtonPressed (form : Form) (country : Country) : Except String AuthRequest :=
  match validateFields form with
  | some errorMessage => .error errorMessage
  | none => .ok (.createUser (trimmingCharacters form.firstName)
      (trimmingCharacters form.lastName) (trimmingCharacters form.email)
      (trimmingCharacters form.password) country)

end SignUpBasicsViewController

namespace LoginViewController

def validateFields (form : Form) : Option String :=
  if trimmingCharacters form.email = "" ∨ trimmingCharacters form.password = "" then
    some "All fields are required."
  else if !isValidEmail form.email then
    some "You should enter a valid email address."
  else none

def loginButtonPressed (form : Form) : Except String AuthRequest :=
  match validateFields form with
  | some errorMessage => .error errorMessage
  | none => .ok (.signIn (trimmingCharacters form.email) (trimmingCharacters form.password))

end LoginViewController

/-! ## What the values should be -/

def ValidEmail (text : List Char) : Prop :=
  ∃ localPart domain letters : List Char,
    text = localPart ++ '@' :: (domain ++ '.' :: letters) ∧
    localPart ≠ [] ∧ (∀ c ∈ localPart, localCharacter c = true) ∧
    domain ≠ [] ∧ (∀ c ∈ domain, domainCharacter c = true) ∧
    2 ≤ letters.length ∧ letters.length ≤ 64 ∧ ∀ c ∈ letters, letter c = true

structure ValidPassword (text : List Char) : Prop where
  length : 8 ≤ text.length
  characters : ∀ c ∈ text, passwordCharacter c = true
  digit : ∃ c ∈ text, digit c = true
  lower : ∃ c ∈ text, lower c = true
  upper : ∃ c ∈ text, upper c = true

structure SignUpValues (values : Form) : Prop where
  firstName : values.firstName ≠ ""
  lastName : values.lastName ≠ ""
  email : ValidEmail values.email.toList
  password : ValidPassword values.password.toList

structure LoginValues (values : Form) : Prop where
  email : ValidEmail values.email.toList
  password : values.password ≠ ""

/-! ## The classes are what they should be -/

section Classes

variable {c : Char}

theorem range_iff {low high : Char} :
    range low high c = true ↔ low.toNat ≤ c.toNat ∧ c.toNat ≤ high.toNat := by
  rw [range, Bool.and_eq_true, decide_eq_true_eq, decide_eq_true_eq]

theorem toNat_of_alphanumeric (h : alphanumeric c = true) : 0x20 < c.toNat ∧ c.toNat < 0x7f := by
  unfold alphanumeric letter upper lower digit at h
  simp only [Bool.or_eq_true, range_iff] at h
  have hbounds : ('A'.toNat = 65 ∧ 'Z'.toNat = 90) ∧ ('a'.toNat = 97 ∧ 'z'.toNat = 122) ∧
      '0'.toNat = 48 ∧ '9'.toNat = 57 := by decide
  omega

theorem not_whitespace {signs : List Char}
    (hsigns : signs.all (fun c => !whitespacesAndNewlines c) = true)
    (h : (alphanumeric c || signs.contains c) = true) : whitespacesAndNewlines c = false := by
  rcases Bool.or_eq_true_iff.mp h with h | h
  · have hbounds := toNat_of_alphanumeric h
    refine Bool.eq_false_iff.mpr fun hwhite => ?_
    simp only [whitespacesAndNewlines, Bool.or_eq_true, Bool.and_eq_true, decide_eq_true_eq,
      List.contains_iff_mem, List.mem_cons, List.not_mem_nil, or_false] at hwhite
    omega
  · have hsign := List.all_eq_true.mp hsigns c (by simpa using h)
    rwa [Bool.not_eq_true'] at hsign

theorem not_whitespace_local (h : localCharacter c = true) : whitespacesAndNewlines c = false :=
  not_whitespace (by decide) h

theorem not_whitespace_domain (h : domainCharacter c = true) : whitespacesAndNewlines c = false :=
  not_whitespace (by decide) h

theorem anyCharacter_of_password (h : passwordCharacter c = true) : anyCharacter c = true := by
  have hterminators : lineTerminators.all (fun d => !passwordCharacter d) = true := by decide
  rw [anyCharacter, Bool.not_eq_true']
  refine Bool.eq_false_iff.mpr fun hmem => ?_
  have hrefused := List.all_eq_true.mp hterminators c (by simpa using hmem)
  rw [h] at hrefused
  cases hrefused

theorem digit_of_decimalDigit (h : passwordCharacter c = true) (hdecimal : decimalDigit c = true) :
    digit c = true := by
  obtain ⟨first, hfirst, hrange⟩ := List.any_eq_true.mp hdecimal
  rw [Bool.and_eq_true, decide_eq_true_eq, decide_eq_true_eq] at hrange
  have hzeros : ∀ first ∈ decimalZeros, first = 0x30 ∨ 0x660 ≤ first := by decide
  rcases hzeros first hfirst with rfl | hlarge
  · exact range_iff.mpr hrange
  · -- only the quotation mark is that far up, and it is no digit
    exfalso
    rcases Bool.or_eq_true_iff.mp h with h | h
    · have hbounds := toNat_of_alphanumeric h
      omega
    · have hsigns : "!@#$%^&*()-_=+\x7b\x7d|?>.<,:;~`\u2019".toList.all
          (fun c => decide (c.toNat < 0x660 ∨ c.toNat = 0x2019)) = true := by decide
      have hquote : ∀ first ∈ decimalZeros, ¬ (first ≤ 0x2019 ∧ 0x2019 ≤ first + 9) := by decide
      have hsign := List.all_eq_true.mp hsigns c (by simpa using h)
      rcases of_decide_eq_true hsign with hsmall | hquotation
      · omega
      · exact hquote first hfirst (hquotation ▸ hrange)

theorem decimalDigit_of_digit (h : digit c = true) : decimalDigit c = true := by
  have hrange := range_iff.mp h
  refine List.any_eq_true.mpr ⟨0x30, List.mem_cons_self, ?_⟩
  rw [Bool.and_eq_true, decide_eq_true_eq, decide_eq_true_eq]
  exact hrange

end Classes

/-! ## The patterns are what they should be -/

section Patterns

variable {text : List Char}

theorem emailRegEx_fullMatch : emailRegEx.FullMatch text ↔ ValidEmail text := by
  unfold Regex.FullMatch emailRegEx
  simp only [Regex.mem_rests_seq, Regex.mem_rests_one, Regex.mem_rests_rep, decide_eq_true_eq]
  constructor
  · rintro ⟨_, ⟨localPart, rfl, hlocal, hlocal', -⟩, _, ⟨_, rfl, rfl⟩, _,
      ⟨domain, rfl, hdomain, hdomain', -⟩, _, ⟨_, rfl, rfl⟩, letters, rfl, hletters, hmin, hmax⟩
    refine ⟨localPart, domain, letters, by rw [List.append_nil],
      List.ne_nil_of_length_pos hlocal', hlocal, List.ne_nil_of_length_pos hdomain', hdomain,
      hmin, hmax 64 rfl, hletters⟩
  · rintro ⟨localPart, domain, letters, rfl, hlocal', hlocal, hdomain', hdomain, hmin, hmax,
      hletters⟩
    refine ⟨_, ⟨localPart, rfl, hlocal, List.length_pos_of_ne_nil hlocal', fun _ h => by cases h⟩,
      _, ⟨'@', rfl, rfl⟩, _,
      ⟨domain, rfl, hdomain, List.length_pos_of_ne_nil hdomain', fun _ h => by cases h⟩,
      _, ⟨'.', rfl, rfl⟩, letters, (List.append_nil letters).symm, hletters, hmin, ?_⟩
    intro bound hbound
    obtain rfl := Option.some.inj hbound
    exact hmax

/-- On one line, a look-ahead finds a character of its class wherever it is. -/
theorem mem_rests_somewhere {allowed : Char → Bool} {n : Nat} {rest : List Char}
    (hline : ∀ c ∈ text, anyCharacter c = true) :
    rest ∈ (somewhere allowed).rests n text ↔ rest = text ∧ ∃ c ∈ text, allowed c = true := by
  rw [somewhere, Regex.mem_rests_lookahead]
  simp only [Regex.mem_rests_seq, Regex.mem_rests_one, Regex.mem_rests_rep]
  refine and_congr_right fun _ => ?_
  constructor
  · rintro ⟨rest, _, ⟨before, rfl, -⟩, c, rfl, hc⟩
    exact ⟨c, List.mem_append_right before List.mem_cons_self, hc⟩
  · rintro ⟨c, hmem, hc⟩
    obtain ⟨before, after, rfl⟩ := List.append_of_mem hmem
    refine ⟨after, _, ⟨before, rfl, fun d hd => ?_, Nat.zero_le _, fun _ h => by cases h⟩,
      c, rfl, hc⟩
    exact hline d (List.mem_append_left _ hd)

theorem passwordRegex_fullMatch : passwordRegex.FullMatch text ↔ ValidPassword text := by
  unfold Regex.FullMatch passwordRegex
  simp only [Regex.mem_rests_seq, Regex.mem_rests_start, Regex.mem_rests_rep,
    Regex.nil_mem_rests_stop]
  constructor
  · rintro ⟨_, ⟨rfl, -⟩, _, hdigit, _, hlower, whole, hupper, _,
      ⟨word, hword, hall, hmin, -⟩, rfl⟩
    -- the look-aheads have left the whole text to the class
    obtain ⟨rfl, -⟩ := Regex.mem_rests_lookahead.mp hdigit
    obtain ⟨rfl, -⟩ := Regex.mem_rests_lookahead.mp hlower
    obtain ⟨rfl, -⟩ := Regex.mem_rests_lookahead.mp hupper
    obtain rfl : whole = word := hword.trans (List.append_nil word)
    have hline : ∀ c ∈ whole, anyCharacter c = true := fun c hc =>
      anyCharacter_of_password (hall c hc)
    obtain ⟨c, hc, hdecimal⟩ := ((mem_rests_somewhere hline).mp hdigit).2
    exact {
      length := hmin
      characters := hall
      digit := ⟨c, hc, digit_of_decimalDigit (hall c hc) hdecimal⟩
      lower := ((mem_rests_somewhere hline).mp hlower).2
      upper := ((mem_rests_somewhere hline).mp hupper).2 }
  · intro hvalid
    have hline : ∀ c ∈ text, anyCharacter c = true := fun c hc =>
      anyCharacter_of_password (hvalid.characters c hc)
    obtain ⟨c, hc, hdigit⟩ := hvalid.digit
    refine ⟨text, ⟨rfl, trivial⟩, text,
      (mem_rests_somewhere hline).mpr ⟨rfl, c, hc, decimalDigit_of_digit hdigit⟩, text,
      (mem_rests_somewhere hline).mpr ⟨rfl, hvalid.lower⟩, text,
      (mem_rests_somewhere hline).mpr ⟨rfl, hvalid.upper⟩, [],
      ⟨text, (List.append_nil text).symm, hvalid.characters, hvalid.length, ?_⟩, rfl⟩
    intro bound hbound
    cases hbound

theorem isValidEmail_iff {str : String} : isValidEmail str = true ↔ ValidEmail str.toList := by
  rw [isValidEmail, decide_eq_true_eq, emailRegEx_fullMatch]

theorem isValidPassword_iff {str : String} :
    isValidPassword str = true ↔ ValidPassword str.toList := by
  rw [isValidPassword, decide_eq_true_eq, passwordRegex_fullMatch]

end Patterns

/-! ## Texts and trimmed texts -/

section Trimming

variable {text text' : String}

theorem trimmed_of_validEmail (h : ValidEmail text.toList) : trimmingCharacters text = text := by
  have hspace : ∀ c ∈ text.toList, whitespacesAndNewlines c = false := by
    obtain ⟨localPart, domain, letters, htext, -, hlocal, -, hdomain, -, -, hletters⟩ := h
    intro c hc
    simp only [htext, List.mem_append, List.mem_cons] at hc
    rcases hc with hc | rfl | hc | rfl | hc
    · exact not_whitespace_local (hlocal c hc)
    · decide
    · exact not_whitespace_domain (hdomain c hc)
    · decide
    · have halphanumeric : alphanumeric c = true := by simp [alphanumeric, hletters c hc]
      exact not_whitespace_local (by simp [localCharacter, halphanumeric])
  rw [trimmingCharacters, trim_of_forall_not hspace, String.ofList_toList]

theorem isValidEmail_iff_trimmed : isValidEmail text = true ↔
    trimmingCharacters text = text ∧ ValidEmail (trimmingCharacters text).toList := by
  rw [isValidEmail_iff]
  constructor
  · intro h
    have htrimmed := trimmed_of_validEmail h
    exact ⟨htrimmed, htrimmed.symm ▸ h⟩
  · rintro ⟨htrimmed, h⟩
    exact htrimmed ▸ h

theorem ne_empty_of_validEmail (h : ValidEmail text.toList) : text ≠ "" := by
  rintro rfl
  obtain ⟨localPart, domain, letters, htext, -⟩ := h
  exact absurd htext.symm (by simp)

theorem ne_empty_of_validPassword (h : ValidPassword text.toList) : text ≠ "" := by
  rintro rfl
  exact absurd h.length (by decide)

def Pads (text text' : String) : Prop :=
  ∃ before after : List Char, text'.toList = before ++ text.toList ++ after ∧
    (∀ c ∈ before, whitespacesAndNewlines c = true) ∧
    ∀ c ∈ after, whitespacesAndNewlines c = true

theorem trimmed_of_pads (h : Pads text text') :
    trimmingCharacters text' = trimmingCharacters text := by
  obtain ⟨before, after, htext, hbefore, hafter⟩ := h
  rw [trimmingCharacters, htext, trim_pad hbefore hafter, trimmingCharacters]

end Trimming

/-! ## When a form is judged by what it sends -/

def EmailPadded (form : Form) : Prop := form.trimmed.email ≠ form.email

structure Form.Pads (form form' : Form) : Prop where
  firstName : Validation.Pads form.firstName form'.firstName
  lastName : Validation.Pads form.lastName form'.lastName
  email : Validation.Pads form.email form'.email
  password : Validation.Pads form.password form'.password

section Forms

variable {form form' : Form}

theorem Form.trimmed_of_pads (h : form.Pads form') : form'.trimmed = form.trimmed := by
  simp only [Form.trimmed, Validation.trimmed_of_pads h.firstName,
    Validation.trimmed_of_pads h.lastName, Validation.trimmed_of_pads h.email,
    Validation.trimmed_of_pads h.password]

/-- Both controllers check trimmed texts first and the typed e-mail last. -/
def validate (checked : Option String) (email : String) : Option String :=
  checked.or (if isValidEmail email then none else some "You should enter a valid email address.")

def SignUpBasicsViewController.checkFields (values : Form) : Option String :=
  if values.firstName = "" ∨ values.lastName = "" ∨ values.email = "" ∨ values.password = "" then
    some "All fields are required."
  else if !isValidPassword values.password then some "You should choose a better password."
  else none

def LoginViewController.checkFields (values : Form) : Option String :=
  if values.email = "" ∨ values.password = "" then some "All fields are required." else none

theorem SignUpBasicsViewController.validateFields_eq (form : Form) :
    validateFields form = validate (checkFields form.trimmed) form.email := by
  unfold validateFields validate checkFields Form.trimmed
  simp only
  split
  · rfl
  · split
    · rfl
    · cases isValidEmail form.email <;> rfl

theorem LoginViewController.validateFields_eq (form : Form) :
    validateFields form = validate (checkFields form.trimmed) form.email := by
  unfold validateFields validate checkFields Form.trimmed
  simp only
  split
  · rfl
  · cases isValidEmail form.email <;> rfl

theorem signUpValues_iff {values : Form} : SignUpValues values ↔
    SignUpBasicsViewController.checkFields values = none ∧ ValidEmail values.email.toList := by
  unfold SignUpBasicsViewController.checkFields
  constructor
  · intro h
    refine ⟨?_, h.email⟩
    rw [if_neg, if_neg]
    · simp [isValidPassword_iff.mpr h.password]
    · simp [h.firstName, h.lastName, ne_empty_of_validEmail h.email,
        ne_empty_of_validPassword h.password]
  · rintro ⟨hchecked, hemail⟩
    split at hchecked
    · cases hchecked
    · next hfields =>
        split at hchecked
        · cases hchecked
        · next hpassword =>
            simp only [not_or] at hfields
            exact {
              firstName := hfields.1
              lastName := hfields.2.1
              email := hemail
              password := isValidPassword_iff.mp (by simpa using hpassword) }

theorem loginValues_iff {values : Form} : LoginValues values ↔
    LoginViewController.checkFields values = none ∧ ValidEmail values.email.toList := by
  unfold LoginViewController.checkFields
  constructor
  · intro h
    refine ⟨?_, h.email⟩
    rw [if_neg]
    simp [h.password, ne_empty_of_validEmail h.email]
  · rintro ⟨hchecked, hemail⟩
    split at hchecked
    · cases hchecked
    · next hfields => exact ⟨hemail, (not_or.mp hfields).2⟩

section Verdicts

variable {checked : Option String} {email email' : String} {good : Prop}

theorem validate_eq_none : validate checked email = none ↔
    checked = none ∧ trimmingCharacters email = email ∧
      ValidEmail (trimmingCharacters email).toList := by
  rw [← isValidEmail_iff_trimmed, validate, Option.or_eq_none_iff]
  refine and_congr_right fun _ => ?_
  cases isValidEmail email <;> simp

/-- Two typings of the same values get different verdicts exactly where the values are good and
only one of the e-mails has white space. -/
theorem steady_iff (hsame : trimmingCharacters email' = trimmingCharacters email)
    (hgood : good ↔ checked = none ∧ ValidEmail (trimmingCharacters email).toList) :
    validate checked email = validate checked email' ↔
      ¬ (good ∧ ¬ (trimmingCharacters email ≠ email ↔ trimmingCharacters email' ≠ email')) := by
  cases checked with
  | some message => simp [validate, hgood]
  | none =>
      have hvalid : validate none email = validate none email' ↔
          (isValidEmail email = true ↔ isValidEmail email' = true) := by
        unfold validate
        cases isValidEmail email <;> cases isValidEmail email' <;> simp
      rw [hvalid, isValidEmail_iff_trimmed, isValidEmail_iff_trimmed, hsame, hgood]
      by_cases hemail : ValidEmail (trimmingCharacters email).toList <;> simp [hemail, not_iff_not]

end Verdicts

/-- Whatever is sent are the trimmed texts of a form without an error. -/
theorem SignUpBasicsViewController.nextButtonPressed_ok {country : Country}
    {request : AuthRequest} : nextButtonPressed form country = .ok request ↔
      validateFields form = none ∧ request = .createUser form.trimmed.firstName
        form.trimmed.lastName form.trimmed.email form.trimmed.password country := by
  unfold nextButtonPressed
  cases validateFields form with
  | none => simp [Form.trimmed, eq_comm]
  | some message => simp

theorem LoginViewController.loginButtonPressed_ok {request : AuthRequest} :
    loginButtonPressed form = .ok request ↔
      validateFields form = none ∧
        request = .signIn form.trimmed.email form.trimmed.password := by
  unfold loginButtonPressed
  cases validateFields form with
  | none => simp [Form.trimmed, eq_comm]
  | some message => simp

theorem signUp_error_iff : SignUpBasicsViewController.validateFields form = none ↔
    SignUpValues form.trimmed ∧ ¬ EmailPadded form := by
  rw [SignUpBasicsViewController.validateFields_eq, validate_eq_none, signUpValues_iff,
    EmailPadded, not_not]
  exact ⟨fun h => ⟨⟨h.1, h.2.2⟩, h.2.1⟩, fun h => ⟨h.1.1, h.2, h.1.2⟩⟩

theorem login_error_iff : LoginViewController.validateFields form = none ↔
    LoginValues form.trimmed ∧ ¬ EmailPadded form := by
  rw [LoginViewController.validateFields_eq, validate_eq_none, loginValues_iff,
    EmailPadded, not_not]
  exact ⟨fun h => ⟨⟨h.1, h.2.2⟩, h.2.1⟩, fun h => ⟨h.1.1, h.2, h.1.2⟩⟩

theorem signUp_steady_iff (hpads : form.Pads form') :
    SignUpBasicsViewController.validateFields form =
        SignUpBasicsViewController.validateFields form' ↔
      ¬ (SignUpValues form.trimmed ∧ ¬ (EmailPadded form ↔ EmailPadded form')) := by
  have hgood : SignUpValues form.trimmed ↔
      SignUpBasicsViewController.checkFields form.trimmed = none ∧
        ValidEmail (trimmingCharacters form.email).toList := signUpValues_iff
  rw [SignUpBasicsViewController.validateFields_eq, SignUpBasicsViewController.validateFields_eq,
    Form.trimmed_of_pads hpads]
  exact steady_iff (trimmed_of_pads hpads.email) hgood

theorem login_steady_iff (hpads : form.Pads form') :
    LoginViewController.validateFields form = LoginViewController.validateFields form' ↔
      ¬ (LoginValues form.trimmed ∧ ¬ (EmailPadded form ↔ EmailPadded form')) := by
  have hgood : LoginValues form.trimmed ↔
      LoginViewController.checkFields form.trimmed = none ∧
        ValidEmail (trimmingCharacters form.email).toList := loginValues_iff
  rw [LoginViewController.validateFields_eq, LoginViewController.validateFields_eq,
    Form.trimmed_of_pads hpads]
  exact steady_iff (trimmed_of_pads hpads.email) hgood

theorem loginValues_of_signUpValues {values : Form} (h : SignUpValues values) :
    LoginValues values := ⟨h.email, ne_empty_of_validPassword h.password⟩

end Forms

/-! ## The verdicts of both forms -/

/-- A form without an error is one whose trimmed texts are good, in both controllers. -/
structure Judged (form : Form) : Prop where
  signUp : SignUpBasicsViewController.validateFields form = none ↔ SignUpValues form.trimmed
  login : LoginViewController.validateFields form = none ↔ LoginValues form.trimmed

/-- White space around the texts changes no verdict. -/
structure Steady (form form' : Form) : Prop where
  signUp : SignUpBasicsViewController.validateFields form =
    SignUpBasicsViewController.validateFields form'
  login : LoginViewController.validateFields form = LoginViewController.validateFields form'

/-- **Validation.** A form is judged by the values that it sends exactly where its e-mail is
typed without white space around it or the login would not accept the values; white space added
around the texts changes a verdict exactly where the login accepts the values and only one of
the e-mails has white space; and what the sign-up accepts the login accepts. -/
theorem validation_judges (form form' : Form) :
    (Judged form ↔ ¬ (EmailPadded form ∧ LoginValues form.trimmed)) ∧
    ((form.Pads form' → Steady form form') ↔ ¬ (form.Pads form' ∧ LoginValues form.trimmed ∧
      ¬ (EmailPadded form ↔ EmailPadded form'))) ∧
    (SignUpBasicsViewController.validateFields form = none →
      LoginViewController.validateFields form = none) := by
  refine ⟨⟨?_, ?_⟩, ⟨?_, ?_⟩, ?_⟩
  · intro h ⟨hpadded, hvalues⟩
    exact (login_error_iff.mp (h.login.mpr hvalues)).2 hpadded
  · intro h
    constructor
    · rw [signUp_error_iff, and_iff_left_iff_imp]
      exact fun hvalues hpadded => h ⟨hpadded, loginValues_of_signUpValues hvalues⟩
    · rw [login_error_iff, and_iff_left_iff_imp]
      exact fun hvalues hpadded => h ⟨hpadded, hvalues⟩
  · rintro h ⟨hpads, hvalues, hpadded⟩
    exact (login_steady_iff hpads).mp (h hpads).login ⟨hvalues, hpadded⟩
  · intro h hpads
    have hsteady : LoginValues form.trimmed → (EmailPadded form ↔ EmailPadded form') := by
      intro hvalues
      by_contra hpadded
      exact h ⟨hpads, hvalues, hpadded⟩
    constructor
    · refine (signUp_steady_iff hpads).mpr fun hpadded => ?_
      exact hpadded.2 (hsteady (loginValues_of_signUpValues hpadded.1))
    · exact (login_steady_iff hpads).mpr fun hpadded => hpadded.2 (hsteady hpadded.1)
  · rw [signUp_error_iff, login_error_iff]
    exact And.imp_left loginValues_of_signUpValues

def pasted : Form where
  firstName := "Ada"
  lastName := "Byron"
  email := " ada@example.com"
  password := "Difference1"

theorem pasted_refused : ¬ ∀ form : Form, Judged form := by
  intro h
  have hlogin := (h pasted).login
  have hvalues : LoginValues pasted.trimmed := {
    email := isValidEmail_iff.mp (by decide +kernel)
    password := by decide }
  have hpadded : pasted.trimmed.email ≠ pasted.email := by decide
  exact (login_error_iff.mp (hlogin.mpr hvalues)).2 hpadded

end NewsFlash.Accounts.Validation
