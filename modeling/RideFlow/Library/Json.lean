import Mathlib.Data.List.Basic
import Mathlib.Data.List.TakeWhile
import Mathlib.Tactic.Common

/-!
# JSON texts

What `json.dumps` of Python writes for a value, in ASCII and on one line, and what
`json.loads` reads.  Numbers are kept as they are written, names as often as they
occur, and halves of surrogate pairs are no characters.

A reader takes a value off the front of a text and says what is left.  It takes what
the writer wrote, whatever closes the value behind it (`readValue_write`).  So a
written text is read as the value (`loads_dumps`), and no two values share a text
(`dumps_injective`).
-/

namespace PyJson

/-- `rest` is what may stand behind a value in a text. -/
def Closes (rest : List Char) : Prop := ∀ c ∈ rest.head?, c = ',' ∨ c = ']' ∨ c = '}'

/-- Nothing may stand behind a value. -/
theorem closes_nil : Closes [] := fun _ h => by cases h

/-- A comma or a closing bracket may stand behind a value. -/
theorem closes_cons {c : Char} {rest : List Char} (h : c = ',' ∨ c = ']' ∨ c = '}') :
    Closes (c :: rest) := by
  intro d hd
  cases hd
  exact h

section Numbers

/-- The character, where it is in front. -/
def scanChar (mark : Char → Bool) : List Char → List Char × List Char
  | [] => ([], [])
  | c :: text => if mark c then ([c], text) else ([], c :: text)

/-- The digits in front, and the rest. -/
def scanDigits (text : List Char) : List Char × List Char :=
  (text.takeWhile Char.isDigit, text.dropWhile Char.isDigit)

/-- `0|[1-9]\d*` -/
def scanWhole : List Char → List Char × List Char
  | [] => ([], [])
  | c :: text => if c = '0' then ([c], text) else scanDigits (c :: text)

/-- `(\.\d+)?` -/
def scanFraction (text : List Char) : List Char × List Char :=
  let (point, digits) := scanChar (· = '.') text
  let (fraction, rest) := scanDigits digits
  if point = [] ∨ fraction = [] then ([], text) else (point ++ fraction, rest)

/-- `([eE][-+]?\d+)?` -/
def scanExponent (text : List Char) : List Char × List Char :=
  let (mark, signed) := scanChar (fun c => c = 'e' ∨ c = 'E') text
  let (sign, digits) := scanChar (fun c => c = '-' ∨ c = '+') signed
  let (exponent, rest) := scanDigits digits
  if mark = [] ∨ exponent = [] then ([], text) else (mark ++ sign ++ exponent, rest)

/-- A number in front of a text, and the rest. -/
def scanNumber (text : List Char) : Option (List Char × List Char) :=
  let (sign, unsigned) := scanChar (· = '-') text
  let (whole, rest) := scanWhole unsigned
  let (fraction, rest) := scanFraction rest
  let (exponent, rest) := scanExponent rest
  if whole = [] then none else some (sign ++ whole ++ fraction ++ exponent, rest)

/-- A number as it is written. -/
structure Numeral where
  text : List Char
  scans : scanNumber text = some (text, [])

/-- The text as a number, if it is one. -/
def Numeral.of? (text : List Char) : Option Numeral :=
  if h : scanNumber text = some (text, []) then some ⟨text, h⟩ else none

/-- The text of a number is a number. -/
theorem of?_text (n : Numeral) : Numeral.of? n.text = some n := dif_pos n.scans

/-- A number begins with its sign or a digit. -/
theorem numeral_head (n : Numeral) :
    ∃ c text, n.text = c :: text ∧ (c = '-' ∨ c.isDigit = true) := by
  have hscans := n.scans
  cases htext : n.text with
  | nil =>
      rw [htext] at hscans
      cases hscans
  | cons c text =>
      refine ⟨c, text, rfl, ?_⟩
      by_contra hhead
      obtain ⟨hsign, hdigit⟩ := not_or.mp hhead
      have hzero : c ≠ '0' := by
        rintro rfl
        exact hdigit rfl
      simp [htext, scanNumber, scanChar, scanWhole, scanDigits, hsign, hdigit, hzero] at hscans

/-- What closes a value is no part of what a scanner takes. -/
def Stable (scan : List Char → List Char × List Char) : Prop :=
  ∀ text rest, Closes rest → scan (text ++ rest) = ((scan text).1, (scan text).2 ++ rest)

/-- A mark that closes nothing is scanned without what closes the value. -/
theorem stable_scanChar (mark : Char → Bool)
    (h : mark ',' = false ∧ mark ']' = false ∧ mark '}' = false) : Stable (scanChar mark) := by
  intro text rest hrest
  cases text with
  | nil =>
      cases rest with
      | nil => rfl
      | cons c rest =>
          have hmark : mark c = false := by
            rcases hrest c rfl with rfl | rfl | rfl
            · exact h.1
            · exact h.2.1
            · exact h.2.2
          simp [scanChar, hmark]
  | cons c text =>
      by_cases hmark : mark c = true
      · simp [scanChar, hmark]
      · simp [scanChar, hmark]

/-- So are digits. -/
theorem stable_scanDigits : Stable scanDigits := by
  intro text rest hrest
  induction text with
  | nil =>
      cases rest with
      | nil => rfl
      | cons c rest =>
          have hdigit : c.isDigit = false := by
            rcases hrest c rfl with rfl | rfl | rfl <;> rfl
          simp [scanDigits, hdigit]
  | cons c text ih =>
      by_cases hdigit : c.isDigit = true
      · simp only [scanDigits, Prod.mk.injEq] at ih
        simp [scanDigits, hdigit, ih.1, ih.2]
      · simp [scanDigits, hdigit]

/-- So is the whole part of a number. -/
theorem stable_scanWhole : Stable scanWhole := by
  intro text rest hrest
  cases text with
  | nil =>
      cases rest with
      | nil => rfl
      | cons c rest =>
          have hzero : c ≠ '0' := by
            rcases hrest c rfl with rfl | rfl | rfl <;> decide
          have hstable := stable_scanDigits [] (c :: rest) hrest
          simpa [scanWhole, hzero, scanDigits] using hstable
  | cons c text =>
      by_cases hzero : c = '0'
      · simp [scanWhole, hzero]
      · have hstable := stable_scanDigits (c :: text) rest hrest
        simpa [scanWhole, hzero] using hstable

/-- So is its fraction. -/
theorem stable_scanFraction : Stable scanFraction := by
  intro text rest hrest
  have hpoint := stable_scanChar (fun c => c = '.') (by decide) text rest hrest
  have hdigits := stable_scanDigits (scanChar (fun c => c = '.') text).2 rest hrest
  simp only [scanFraction, hpoint, hdigits]
  split_ifs <;> rfl

/-- So is its exponent. -/
theorem stable_scanExponent : Stable scanExponent := by
  intro text rest hrest
  have hmark := stable_scanChar (fun c => c = 'e' ∨ c = 'E') (by decide) text rest hrest
  have hsign := stable_scanChar (fun c => c = '-' ∨ c = '+') (by decide)
    (scanChar (fun c => c = 'e' ∨ c = 'E') text).2 rest hrest
  have hdigits := stable_scanDigits (scanChar (fun c => c = '-' ∨ c = '+')
    (scanChar (fun c => c = 'e' ∨ c = 'E') text).2).2 rest hrest
  simp only [scanExponent, hmark, hsign, hdigits]
  split_ifs <;> rfl

/-- **A number is read off the front of a text.** -/
theorem scanNumber_append (n : Numeral) {rest : List Char} (hrest : Closes rest) :
    scanNumber (n.text ++ rest) = some (n.text, rest) := by
  have hscans := n.scans
  have hsign := stable_scanChar (fun c => c = '-') (by decide) n.text rest hrest
  simp only [scanNumber, hsign, stable_scanWhole _ rest hrest, stable_scanFraction _ rest hrest,
    stable_scanExponent _ rest hrest] at hscans ⊢
  split_ifs at hscans with hwhole
  obtain ⟨htext, hempty⟩ := Prod.mk.inj (Option.some.inj hscans)
  rw [if_neg hwhole, htext, hempty, List.nil_append]

/-- The first digit of a positive number is not zero. -/
theorem toDigits_head {n : Nat} (hn : 0 < n) :
    ∃ c text, Nat.toDigits 10 n = c :: text ∧ c ≠ '0' := by
  induction n using Nat.strong_induction_on with
  | _ n ih =>
      by_cases hsmall : n < 10
      · refine ⟨n.digitChar, [], Nat.toDigits_of_lt_base hsmall, ?_⟩
        have hdigit : ∀ m < 10, 0 < m → m.digitChar ≠ '0' := by decide
        exact hdigit n hsmall hn
      · obtain ⟨c, text, hdigits, hc⟩ := ih (n / 10) (by omega) (by omega)
        refine ⟨c, text ++ [(n % 10).digitChar], ?_, hc⟩
        rw [Nat.toDigits_of_base_le (by decide) (by omega), hdigits, List.cons_append]

/-- The digits of a natural number are a number. -/
theorem scanNumber_toDigits (n : Nat) :
    scanNumber (Nat.toDigits 10 n) = some (Nat.toDigits 10 n, []) := by
  have hdigits : ∀ c ∈ Nat.toDigits 10 n, c.isDigit = true := fun c hc =>
    Nat.isDigit_of_mem_toDigits (by decide) (by decide) hc
  rcases Nat.eq_zero_or_pos n with rfl | hn
  · rfl
  · obtain ⟨c, text, htext, hzero⟩ := toDigits_head hn
    rw [htext] at hdigits ⊢
    have hall : scanDigits (c :: text) = (c :: text, []) := by
      rw [scanDigits, List.takeWhile_eq_self_iff.mpr hdigits, List.dropWhile_eq_nil_iff.mpr hdigits]
    have hsign : c ≠ '-' := by
      rintro rfl
      exact absurd (hdigits '-' List.mem_cons_self) (by decide)
    simp [scanNumber, scanChar, scanWhole, hall, hsign, hzero, scanFraction, scanExponent]

/-- An `int` that is not negative. -/
def Numeral.ofNat (n : Nat) : Numeral := ⟨Nat.toDigits 10 n, scanNumber_toDigits n⟩

/-- The natural number that a numeral is written as. -/
def Numeral.toNat? (n : Numeral) : Option Nat :=
  if n.text.all Char.isDigit then some (Nat.ofDigitChars 10 n.text 0) else none

/-- It is the one that was written. -/
theorem toNat?_ofNat (n : Nat) : (Numeral.ofNat n).toNat? = some n := by
  have hdigits : (Nat.toDigits 10 n).all Char.isDigit = true :=
    List.all_eq_true.mpr fun c hc => Nat.isDigit_of_mem_toDigits (by decide) (by decide) hc
  rw [Numeral.toNat?, Numeral.ofNat, if_pos hdigits, Nat.ofDigitChars_ten_toDigits]

end Numbers

section Strings

/-- `\x22` opens and closes a string. -/
def quote : Char := '\x22'

/-- The character that escapes. -/
def backslash : Char := '\x5c'

/-- The characters with a short escape, and the letter of it. -/
def shortEscapes : List (Char × Char) :=
  [(quote, quote), (backslash, backslash), ('\n', 'n'), ('\r', 'r'), ('\t', 't'), ('\x08', 'b'),
    ('\x0c', 'f')]

/-- `{:04x}` -/
def writeHex (n : Nat) : List Char :=
  [(n / 4096 % 16).digitChar, (n / 256 % 16).digitChar, (n / 16 % 16).digitChar,
    (n % 16).digitChar]

/-- `\u{:04x}` -/
def writeUnit (n : Nat) : List Char := backslash :: 'u' :: writeHex n

/-- `ensure_ascii`: what is not printable ASCII is written in UTF-16. -/
def writeChar (c : Char) : List Char :=
  match shortEscapes.lookup c with
  | some letter => [backslash, letter]
  | none =>
      if ' ' ≤ c ∧ c ≤ '~' then [c]
      else if c.toNat < 0x10000 then writeUnit c.toNat
      else
        let n := c.toNat - 0x10000
        writeUnit (0xd800 + n / 0x400) ++ writeUnit (0xdc00 + n % 0x400)

/-- A string in quotes. -/
def writeString (s : String) : List Char := quote :: s.toList.flatMap writeChar ++ [quote]

/-- The value of a hexadecimal digit. -/
def hexValue (c : Char) : Option Nat :=
  if '0' ≤ c ∧ c ≤ '9' then some (c.toNat - 48)
  else if 'a' ≤ c ∧ c ≤ 'f' then some (c.toNat - 87)
  else if 'A' ≤ c ∧ c ≤ 'F' then some (c.toNat - 55)
  else none

/-- Four hexadecimal digits. -/
def readHex : List Char → Option (Nat × List Char)
  | a :: b :: c :: d :: text => do
      let a ← hexValue a
      let b ← hexValue b
      let c ← hexValue c
      let d ← hexValue d
      return (4096 * a + 256 * b + 16 * c + d, text)
  | _ => none

/-- The first half of a surrogate pair. -/
def isHigh (n : Nat) : Bool := 0xd800 ≤ n ∧ n ≤ 0xdbff

/-- The second half of a surrogate pair. -/
def isLow (n : Nat) : Bool := 0xdc00 ≤ n ∧ n ≤ 0xdfff

/-- The second half of a surrogate pair. -/
def readLow : List Char → Option (Nat × List Char)
  | slash :: letter :: text =>
      if slash = backslash ∧ letter = 'u' then
        (readHex text).filter fun (low, _) => isLow low
      else none
  | _ => none

/-- What stands behind `\u`. -/
def readUnit (text : List Char) : Option (Char × List Char) := do
  let (n, rest) ← readHex text
  if isHigh n then
    let (low, rest) ← readLow rest
    return (Char.ofNat (0x10000 + (n - 0xd800) * 0x400 + (low - 0xdc00)), rest)
  else if isLow n then none
  else return (Char.ofNat n, rest)

/-- The characters that a short escape stands for; `\/` is never written. -/
def shortEscaped (letter : Char) : Option Char :=
  if letter = '/' then some '/'
  else (shortEscapes.map fun (c, letter) => (letter, c)).lookup letter

/-- What stands behind a backslash. -/
def readEscape : List Char → Option (Char × List Char)
  | [] => none
  | letter :: text =>
      if letter = 'u' then readUnit text
      else (shortEscaped letter).map fun c => (c, text)

/-- A character of a string that begins with `c`. -/
def readChar (c : Char) (text : List Char) : Option (Char × List Char) :=
  if c = backslash then readEscape text
  else if ' ' ≤ c then some (c, text)
  else none

/-- The characters up to the closing quote. -/
def readChars : Nat → List Char → Option (List Char × List Char)
  | 0, _ => none
  | _ + 1, [] => none
  | fuel + 1, c :: text =>
      if c = quote then some ([], text)
      else do
        let (first, text) ← readChar c text
        let (more, rest) ← readChars fuel text
        return (first :: more, rest)

/-- A written digit is read as its value. -/
theorem hexValue_digitChar : ∀ n < 16, hexValue n.digitChar = some n := by decide

/-- Numbers below `16 ^ 4` are read as they were written. -/
theorem readHex_writeHex {n : Nat} (h : n < 0x10000) (rest : List Char) :
    readHex (writeHex n ++ rest) = some (n, rest) := by
  have hdigit : ∀ m, hexValue (m % 16).digitChar = some (m % 16) := fun m =>
    hexValue_digitChar _ (Nat.mod_lt _ (by decide))
  have hsum : 4096 * (n / 4096 % 16) + 256 * (n / 256 % 16) + 16 * (n / 16 % 16) + n % 16 = n := by
    omega
  simp [writeHex, readHex, hdigit, hsum]

/-- A written second half is read as that half. -/
theorem readLow_writeUnit {n : Nat} (h : isLow n = true) (rest : List Char) :
    readLow (writeUnit n ++ rest) = some (n, rest) := by
  have hsmall : n < 0x10000 := by
    have hlow := of_decide_eq_true h
    omega
  have hhex := readHex_writeHex hsmall rest
  simp [writeUnit, readLow, hhex, h]

/-- A character of the basic plane is no half of a pair. -/
theorem not_surrogate (c : Char) : isHigh c.toNat = false ∧ isLow c.toNat = false := by
  have hvalid : c.toNat.isValidChar := c.valid
  simp only [Nat.isValidChar] at hvalid
  constructor
  · exact decide_eq_false (by omega)
  · exact decide_eq_false (by omega)

/-- A character of the basic plane is read from its one unit. -/
theorem readUnit_basic {c : Char} (h : c.toNat < 0x10000) (rest : List Char) :
    readUnit (writeHex c.toNat ++ rest) = some (c, rest) := by
  obtain ⟨hhigh, hlow⟩ := not_surrogate c
  simp [readUnit, readHex_writeHex h, hhigh, hlow, Char.ofNat_toNat]

/-- Two halves are put together. -/
theorem readUnit_halves {high low : Nat} (hhigh : isHigh high = true) (hlow : isLow low = true)
    (rest : List Char) : readUnit (writeHex high ++ (writeUnit low ++ rest)) =
      some (Char.ofNat (0x10000 + (high - 0xd800) * 0x400 + (low - 0xdc00)), rest) := by
  have hsmall : high < 0x10000 := by
    have hbounds := of_decide_eq_true hhigh
    omega
  rw [readUnit, readHex_writeHex hsmall]
  simp only [Option.bind_eq_bind, Option.bind_some, hhigh, if_true, readLow_writeUnit hlow,
    Option.pure_def]

/-- A character beyond the basic plane is its two halves. -/
theorem readUnit_pair {c : Char} (h : 0x10000 ≤ c.toNat) (rest : List Char) :
    readUnit (writeHex (0xd800 + (c.toNat - 0x10000) / 0x400) ++
      (writeUnit (0xdc00 + (c.toNat - 0x10000) % 0x400) ++ rest)) = some (c, rest) := by
  have hvalid : c.toNat.isValidChar := c.valid
  simp only [Nat.isValidChar] at hvalid
  obtain ⟨n, hn⟩ : ∃ n, c.toNat = 0x10000 + n := ⟨c.toNat - 0x10000, by omega⟩
  have hhigh : isHigh (0xd800 + n / 0x400) = true := by
    rw [isHigh, decide_eq_true_iff]
    omega
  have hlow : isLow (0xdc00 + n % 0x400) = true := by
    rw [isLow, decide_eq_true_iff]
    omega
  have hsum : 0x10000 + n / 0x400 * 0x400 + n % 0x400 = c.toNat := by
    rw [hn, Nat.add_assoc, Nat.div_add_mod']
  rw [hn, Nat.add_sub_cancel_left, readUnit_halves hhigh hlow, Nat.add_sub_cancel_left,
    Nat.add_sub_cancel_left, hsum, Char.ofNat_toNat]

/-- A short escape is read as the character it stands for. -/
theorem shortEscaped_letter : ∀ escape ∈ shortEscapes,
    escape.2 ≠ 'u' ∧ shortEscaped escape.2 = some escape.1 := by decide

/-- **A character is read as it was written**, and is not taken for the closing quote. -/
theorem readChar_writeChar (c : Char) (rest : List Char) :
    ∃ first text, writeChar c = first :: text ∧ first ≠ quote ∧
      readChar first (text ++ rest) = some (c, rest) := by
  unfold writeChar
  split
  case h_1 letter hletter =>
      obtain ⟨before, after, hsplit, _⟩ := List.lookup_eq_some_iff.mp hletter
      have hmem : (c, letter) ∈ shortEscapes := by simp [hsplit]
      obtain ⟨hunit, hshort⟩ := shortEscaped_letter _ hmem
      exact ⟨backslash, [letter], rfl, by decide, by simp [readChar, readEscape, hunit, hshort]⟩
  case h_2 hnone =>
      have hquote : c ≠ quote := by
        rintro rfl
        exact absurd hnone (by decide)
      have hslash : c ≠ backslash := by
        rintro rfl
        exact absurd hnone (by decide)
      split_ifs with hprintable hbasic
      · exact ⟨c, [], rfl, hquote, by simp [readChar, hslash, hprintable.1]⟩
      · refine ⟨backslash, 'u' :: writeHex c.toNat, rfl, by decide, ?_⟩
        exact readUnit_basic hbasic rest
      · refine ⟨backslash, _, rfl, by decide, ?_⟩
        exact readUnit_pair (Nat.le_of_not_lt hbasic) rest

/-- Written characters are read as they were, up to the closing quote. -/
theorem readChars_write (chars : List Char) :
    ∀ fuel rest, (chars.flatMap writeChar).length < fuel →
      readChars fuel (chars.flatMap writeChar ++ quote :: rest) = some (chars, rest) := by
  induction chars with
  | nil =>
      intro fuel rest hfuel
      obtain ⟨fuel, rfl⟩ := Nat.exists_eq_add_one_of_ne_zero (Nat.ne_of_gt hfuel)
      simp [readChars]
  | cons c chars ih =>
      intro fuel rest hfuel
      obtain ⟨first, text, hwritten, hquote, hread⟩ :=
        readChar_writeChar c (chars.flatMap writeChar ++ quote :: rest)
      simp only [List.flatMap_cons, hwritten, List.length_append, List.length_cons] at hfuel
      obtain ⟨fuel, rfl⟩ : ∃ more, fuel = more + 1 := ⟨fuel - 1, by omega⟩
      have hmore := ih fuel rest (by omega)
      simp [readChars, hwritten, hquote, hread, hmore]

end Strings

section Values

/-- What Python's `json` writes: finite numbers by their `repr`, strings without lone
surrogates, and an object for a `dict` with string keys, in its order. -/
inductive Value
  | null
  | bool (b : Bool)
  | number (n : Numeral)
  | string (s : String)
  | array (items : List Value)
  | object (members : List (String × Value))

mutual

/-- `json.dumps(value)`. -/
def Value.write : Value → List Char
  | .null => "null".toList
  | .bool true => "true".toList
  | .bool false => "false".toList
  | .number n => n.text
  | .string s => writeString s
  | .array [] => ['[', ']']
  | .array (v :: items) => '[' :: (v.write ++ writeItems items)
  | .object [] => ['{', '}']
  | .object (m :: members) => '{' :: (writeMember m ++ writeMembers members)

/-- The items behind the first one. -/
def writeItems : List Value → List Char
  | [] => [']']
  | v :: items => ',' :: ' ' :: (v.write ++ writeItems items)

/-- The members behind the first one. -/
def writeMembers : List (String × Value) → List Char
  | [] => ['}']
  | m :: members => ',' :: ' ' :: (writeMember m ++ writeMembers members)

/-- A member of an object. -/
def writeMember : String × Value → List Char
  | (name, v) => writeString name ++ ':' :: ' ' :: v.write

end

/-- The white space of JSON. -/
def isSpace (c : Char) : Bool := c = ' ' ∨ c = '\t' ∨ c = '\n' ∨ c = '\r'

/-- The text behind its white space. -/
def skipSpace (text : List Char) : List Char := text.dropWhile isSpace

/-- What stands behind a word. -/
def expect (word text : List Char) : Option (List Char) :=
  if word <+: text then some (text.drop word.length) else none

/-- A string in front of a text, and the rest. -/
def readString (fuel : Nat) (text : List Char) : Option (String × List Char) := do
  let text ← expect [quote] text
  let (chars, rest) ← readChars fuel text
  return (String.ofList chars, rest)

/-- A number in front of a text, and the rest. -/
def readNumber (text : List Char) : Option (Value × List Char) := do
  let (number, rest) ← scanNumber text
  let n ← Numeral.of? number
  return (.number n, rest)

mutual

/-- A value in front of a text, and the rest. -/
def readValue : Nat → List Char → Option (Value × List Char)
  | 0, _ => none
  | _ + 1, [] => none
  | fuel + 1, c :: text =>
      if c = quote then
        (readString fuel (c :: text)).map fun (s, rest) => (.string s, rest)
      else if c = '[' then
        match expect [']'] (skipSpace text) with
        | some rest => some (.array [], rest)
        | none => do
            let (v, rest) ← readValue fuel (skipSpace text)
            let (items, rest) ← readItems fuel (skipSpace rest)
            return (.array (v :: items), rest)
      else if c = '{' then
        match expect ['}'] (skipSpace text) with
        | some rest => some (.object [], rest)
        | none => do
            let (m, rest) ← readMember fuel (skipSpace text)
            let (members, rest) ← readMembers fuel (skipSpace rest)
            return (.object (m :: members), rest)
      else if c = 'n' then
        (expect "ull".toList text).map fun rest => (.null, rest)
      else if c = 't' then
        (expect "rue".toList text).map fun rest => (.bool true, rest)
      else if c = 'f' then
        (expect "alse".toList text).map fun rest => (.bool false, rest)
      else
        readNumber (c :: text)

/-- The items behind the first one, up to the closing bracket. -/
def readItems : Nat → List Char → Option (List Value × List Char)
  | 0, _ => none
  | fuel + 1, text =>
      match expect [']'] text with
      | some rest => some ([], rest)
      | none => do
          let text ← expect [','] text
          let (v, rest) ← readValue fuel (skipSpace text)
          let (items, rest) ← readItems fuel (skipSpace rest)
          return (v :: items, rest)

/-- The members behind the first one, up to the closing brace. -/
def readMembers : Nat → List Char → Option (List (String × Value) × List Char)
  | 0, _ => none
  | fuel + 1, text =>
      match expect ['}'] text with
      | some rest => some ([], rest)
      | none => do
          let text ← expect [','] text
          let (m, rest) ← readMember fuel (skipSpace text)
          let (members, rest) ← readMembers fuel (skipSpace rest)
          return (m :: members, rest)

/-- A member in front of a text, and the rest. -/
def readMember : Nat → List Char → Option ((String × Value) × List Char)
  | 0, _ => none
  | fuel + 1, text => do
      let (name, rest) ← readString fuel text
      let text ← expect [':'] (skipSpace rest)
      let (v, rest) ← readValue fuel (skipSpace text)
      return ((name, v), rest)

end

/-- `json.dumps(value)`. -/
def dumps (v : Value) : List Char := v.write

/-- `json.loads(text)`. -/
def loads (text : List Char) : Option Value := do
  let (v, rest) ← readValue (text.length + 1) (skipSpace text)
  if skipSpace rest = [] then return v else none

/-- There is nothing to skip before a character that is no space. -/
@[simp] theorem skipSpace_cons {c : Char} {text : List Char} (h : isSpace c = false) :
    skipSpace (c :: text) = c :: text := by
  simp [skipSpace, h]

/-- A space is skipped. -/
@[simp] theorem skipSpace_space (text : List Char) : skipSpace (' ' :: text) = skipSpace text := by
  simp [skipSpace, isSpace]

/-- A word that is there is taken off. -/
@[simp] theorem expect_append (word text : List Char) : expect word (word ++ text) = some text := by
  simp [expect]

/-- So is a character. -/
@[simp] theorem expect_cons (c : Char) (text : List Char) : expect [c] (c :: text) = some text := by
  simp [expect]

/-- A character that is not there is missed. -/
theorem expect_other {c d : Char} (h : c ≠ d) (text : List Char) :
    expect [c] (d :: text) = none := by
  simp [expect, h]

/-- A comma closes nothing. -/
theorem expect_comma (text : List Char) :
    expect [']'] (',' :: text) = none ∧ expect ['}'] (',' :: text) = none :=
  ⟨expect_other (by decide) text, expect_other (by decide) text⟩

/-- A written string is read as it was. -/
theorem readString_write (s : String) {fuel : Nat} (h : (writeString s).length ≤ fuel)
    (rest : List Char) : readString fuel (writeString s ++ rest) = some (s, rest) := by
  have hfuel : (s.toList.flatMap writeChar).length < fuel := by
    simp only [writeString, List.cons_append, List.length_cons, List.length_append] at h
    omega
  have hchars := readChars_write s.toList fuel rest hfuel
  simp [readString, writeString, hchars]

/-- A number is read from its text, whatever closes it. -/
theorem readNumber_text (n : Numeral) {rest : List Char} (h : Closes rest) :
    readNumber (n.text ++ rest) = some (.number n, rest) := by
  simp [readNumber, scanNumber_append n h, of?_text]

/-- A number does not start like anything else. -/
theorem numeral_head_ne {c d : Char} (h : c = '-' ∨ c.isDigit = true)
    (hd : d ≠ '-' ∧ d.isDigit = false) : c ≠ d := by
  rintro rfl
  rcases h with hsign | hdigit
  · exact hd.1 hsign
  · rw [hd.2] at hdigit
    cases hdigit

/-- What the first character of a value can not be. -/
theorem write_head (v : Value) :
    ∃ c text, v.write = c :: text ∧ isSpace c = false ∧ c ≠ ']' := by
  cases v with
  | null => exact ⟨'n', _, rfl, rfl, by decide⟩
  | bool b =>
      cases b with
      | false => exact ⟨'f', _, rfl, rfl, by decide⟩
      | true => exact ⟨'t', _, rfl, rfl, by decide⟩
  | number n =>
      obtain ⟨c, text, htext, hhead⟩ := numeral_head n
      have hne := fun d hd => numeral_head_ne (d := d) hhead hd
      refine ⟨c, text, htext, ?_, hne ']' (by decide)⟩
      simp [isSpace, hne ' ' (by decide), hne '\t' (by decide), hne '\n' (by decide),
        hne '\r' (by decide)]
  | string s => exact ⟨quote, _, rfl, rfl, by decide⟩
  | array items =>
      cases items with
      | nil => exact ⟨'[', _, rfl, rfl, by decide⟩
      | cons v items => exact ⟨'[', _, rfl, rfl, by decide⟩
  | object members =>
      cases members with
      | nil => exact ⟨'{', _, rfl, rfl, by decide⟩
      | cons m members => exact ⟨'{', _, rfl, rfl, by decide⟩

/-- Spaces are written behind commas and colons only. -/
theorem skipSpace_write (v : Value) (rest : List Char) :
    skipSpace (v.write ++ rest) = v.write ++ rest := by
  obtain ⟨c, text, hwrite, hspace, _⟩ := write_head v
  simp [hwrite, hspace]

/-- A written value does not start with a closing bracket. -/
theorem expect_close_write (v : Value) (rest : List Char) :
    expect [']'] (v.write ++ rest) = none := by
  obtain ⟨c, text, hwrite, _, hclose⟩ := write_head v
  simp [hwrite, expect_other hclose.symm]

/-- A written member starts with a quote. -/
theorem writeMember_head (m : String × Value) : ∃ text, writeMember m = quote :: text := by
  obtain ⟨name, v⟩ := m
  exact ⟨_, rfl⟩

/-- There is nothing to skip before it. -/
theorem skipSpace_writeMember (m : String × Value) (rest : List Char) :
    skipSpace (writeMember m ++ rest) = writeMember m ++ rest := by
  obtain ⟨text, hwrite⟩ := writeMember_head m
  rw [hwrite]
  exact skipSpace_cons rfl

/-- It does not start with a closing brace. -/
theorem expect_close_writeMember (m : String × Value) (rest : List Char) :
    expect ['}'] (writeMember m ++ rest) = none := by
  obtain ⟨text, hwrite⟩ := writeMember_head m
  rw [hwrite]
  exact expect_other (by decide) _

/-- What follows the first item may stand behind a value. -/
theorem closes_writeItems (items : List Value) (rest : List Char) :
    Closes (writeItems items ++ rest) := by
  cases items with
  | nil => exact closes_cons (by decide)
  | cons v items => exact closes_cons (by decide)

/-- So may what follows the first member. -/
theorem closes_writeMembers (members : List (String × Value)) (rest : List Char) :
    Closes (writeMembers members ++ rest) := by
  cases members with
  | nil => exact closes_cons (by decide)
  | cons m members => exact closes_cons (by decide)

/-- There is nothing to skip before what closes a value. -/
theorem skipSpace_closes {rest : List Char} (h : Closes rest) : skipSpace rest = rest := by
  cases rest with
  | nil => rfl
  | cons c rest =>
      refine skipSpace_cons ?_
      rcases h c rfl with rfl | rfl | rfl <;> rfl

/-- A number is taken for nothing else. -/
theorem readValue_number (n : Numeral) (fuel : Nat) (rest : List Char) :
    readValue (fuel + 1) (n.text ++ rest) = readNumber (n.text ++ rest) := by
  obtain ⟨c, text, htext, hhead⟩ := numeral_head n
  have hne := fun d hd => numeral_head_ne (d := d) hhead hd
  simp [htext, readValue, hne quote (by decide), hne '[' (by decide), hne '{' (by decide),
    hne 'n' (by decide), hne 't' (by decide), hne 'f' (by decide)]

mutual

/-- **A value is read as it was written**, and what closes it is left. -/
theorem readValue_write (v : Value) : ∀ fuel rest, v.write.length < fuel → Closes rest →
    readValue fuel (v.write ++ rest) = some (v, rest) := by
  intro fuel rest hfuel hrest
  obtain ⟨fuel, rfl⟩ : ∃ more, fuel = more + 1 := ⟨fuel - 1, by omega⟩
  match v with
  | .null => simp [Value.write, readValue, expect, quote]
  | .bool true => simp [Value.write, readValue, expect, quote]
  | .bool false => simp [Value.write, readValue, expect, quote]
  | .number n => rw [Value.write, readValue_number, readNumber_text n hrest]
  | .string s =>
      have hread := readString_write s (Nat.le_of_lt_succ hfuel) rest
      simp only [writeString, List.cons_append] at hread
      simp only [Value.write, writeString, List.cons_append, readValue, if_true, hread,
        Option.map_some]
  | .array [] => simp [Value.write, readValue, quote, skipSpace_cons (c := ']') rfl]
  | .array (v :: items) =>
      simp only [Value.write, List.length_cons, List.length_append] at hfuel
      have hfirst := readValue_write v fuel (writeItems items ++ rest) (by omega)
        (closes_writeItems items rest)
      have hmore := readItems_write items fuel rest (by omega)
      simp [Value.write, readValue, quote, skipSpace_write, expect_close_write, hfirst, hmore,
        skipSpace_closes (closes_writeItems items rest)]
  | .object [] => simp [Value.write, readValue, quote, skipSpace_cons (c := '}') rfl]
  | .object (m :: members) =>
      simp only [Value.write, List.length_cons, List.length_append] at hfuel
      have hfirst := readMember_write m fuel (writeMembers members ++ rest) (by omega)
        (closes_writeMembers members rest)
      have hmore := readMembers_write members fuel rest (by omega)
      simp [Value.write, readValue, quote, skipSpace_writeMember, expect_close_writeMember, hfirst,
        hmore,
        skipSpace_closes (closes_writeMembers members rest)]

/-- Written items are read as they were. -/
theorem readItems_write (items : List Value) : ∀ fuel rest, (writeItems items).length < fuel →
    readItems fuel (writeItems items ++ rest) = some (items, rest) := by
  intro fuel rest hfuel
  obtain ⟨fuel, rfl⟩ : ∃ more, fuel = more + 1 := ⟨fuel - 1, by omega⟩
  match items with
  | [] => simp [writeItems, readItems]
  | v :: items =>
      simp only [writeItems, List.length_cons, List.length_append] at hfuel
      have hfirst := readValue_write v fuel (writeItems items ++ rest) (by omega)
        (closes_writeItems items rest)
      have hmore := readItems_write items fuel rest (by omega)
      simp [writeItems, readItems, expect_comma, skipSpace_write, hfirst, hmore,
        skipSpace_closes (closes_writeItems items rest)]

/-- Written members are read as they were. -/
theorem readMembers_write (members : List (String × Value)) :
    ∀ fuel rest, (writeMembers members).length < fuel →
      readMembers fuel (writeMembers members ++ rest) = some (members, rest) := by
  intro fuel rest hfuel
  obtain ⟨fuel, rfl⟩ : ∃ more, fuel = more + 1 := ⟨fuel - 1, by omega⟩
  match members with
  | [] => simp [writeMembers, readMembers]
  | m :: members =>
      simp only [writeMembers, List.length_cons, List.length_append] at hfuel
      have hfirst := readMember_write m fuel (writeMembers members ++ rest) (by omega)
        (closes_writeMembers members rest)
      have hmore := readMembers_write members fuel rest (by omega)
      simp [writeMembers, readMembers, expect_comma, skipSpace_writeMember, hfirst, hmore,
        skipSpace_closes (closes_writeMembers members rest)]

/-- A written member is read as it was. -/
theorem readMember_write (m : String × Value) : ∀ fuel rest, (writeMember m).length < fuel →
    Closes rest → readMember fuel (writeMember m ++ rest) = some (m, rest) := by
  intro fuel rest hfuel hrest
  obtain ⟨fuel, rfl⟩ : ∃ more, fuel = more + 1 := ⟨fuel - 1, by omega⟩
  match m with
  | (name, v) =>
      simp only [writeMember, List.length_cons, List.length_append] at hfuel
      have hname : readString fuel (writeString name ++ ':' :: ' ' :: (v.write ++ rest)) =
          some (name, ':' :: ' ' :: (v.write ++ rest)) := readString_write name (by omega) _
      have hvalue := readValue_write v fuel rest (by omega) hrest
      have hcolon : isSpace ':' = false := rfl
      simp [writeMember, readMember, hname, hvalue, hcolon, skipSpace_write]

end

/-- **What was written is read.** -/
theorem loads_dumps (v : Value) : loads (dumps v) = some v := by
  have hskip : skipSpace (dumps v) = dumps v := by
    have h := skipSpace_write v []
    rwa [List.append_nil] at h
  have hread : readValue ((dumps v).length + 1) (dumps v) = some (v, []) := by
    have h := readValue_write v ((dumps v).length + 1) [] (Nat.lt_succ_self _) closes_nil
    rwa [List.append_nil] at h
  rw [loads, hskip, hread]
  rfl

/-- **No two values share a text.** -/
theorem dumps_injective : Function.Injective dumps := by
  intro v w h
  have hread := loads_dumps v
  rw [h, loads_dumps w] at hread
  exact (Option.some.inj hread).symm

end Values

end PyJson
