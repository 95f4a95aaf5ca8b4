import LMCacheHcu.Foundation.Exceptions
import LMCacheHcu.Foundation.Text

/-! # Strings in JSON documents

Python prints the characters of a string in ASCII: those that are not printable there
as escapes of their UTF-16 units. The scanner reads every string of the grammar. It
takes two units that belong together for one character, and refuses control characters
and unknown escapes.
-/

namespace Json

open Exceptions

/-! ### Units -/

/-- A hexadecimal digit in lower case. -/
def hexDigit (digit : ℕ) : Char := Char.ofNat (if digit < 10 then 48 + digit else 87 + digit)

/-- The value of a hexadecimal digit in either case. -/
def hexValue (char : Char) : Option ℕ :=
  if '0' ≤ char ∧ char ≤ '9' then some (char.toNat - 48)
  else if 'a' ≤ char ∧ char ≤ 'f' then some (char.toNat - 87)
  else if 'A' ≤ char ∧ char ≤ 'F' then some (char.toNat - 55)
  else none

theorem hexValue_hexDigit : ∀ digit < 16, hexValue (hexDigit digit) = some digit := by decide

/-- `\uXXXX`. -/
def unitEscape (unit : ℕ) : Text :=
  ['\\', 'u', hexDigit (unit / 4096 % 16), hexDigit (unit / 256 % 16), hexDigit (unit / 16 % 16),
    hexDigit (unit % 16)]

/-- The unit of four digits. -/
def hexUnit (first second third fourth : Char) : Option ℕ := do
  return (((← hexValue first) * 16 + (← hexValue second)) * 16 + (← hexValue third)) * 16 +
    (← hexValue fourth)

theorem hexUnit_hexDigit {unit : ℕ} (fits : unit < 65536) :
    hexUnit (hexDigit (unit / 4096 % 16)) (hexDigit (unit / 256 % 16)) (hexDigit (unit / 16 % 16))
      (hexDigit (unit % 16)) = some unit := by
  have digit (number : ℕ) : hexValue (hexDigit (number % 16)) = some (number % 16) :=
    hexValue_hexDigit _ (Nat.mod_lt _ (by decide))
  simp only [hexUnit, digit, Option.bind_eq_bind, Option.bind_some, Option.pure_def,
    Option.some.injEq]
  omega

/-! ### Printing -/

/-- The escapes of a backslash and one character. -/
def shortEscapes : List (Char × Char) :=
  [('"', '"'), ('\\', '\\'), ('\n', 'n'), ('\r', 'r'), ('\t', 't'), ('\x08', 'b'), ('\x0c', 'f')]

/-- The high and the low unit of a character behind the first 65536. -/
def unitPair (char : Char) : ℕ × ℕ :=
  (0xd800 + (char.toNat - 0x10000) / 0x400, 0xdc00 + (char.toNat - 0x10000) % 0x400)

def escape (char : Char) : Text :=
  match shortEscapes.lookup char with
  | some short => ['\\', short]
  | none =>
      if 0x20 ≤ char.toNat ∧ char.toNat < 0x7f then [char]
      else if char.toNat < 0x10000 then unitEscape char.toNat
      else unitEscape (unitPair char).1 ++ unitEscape (unitPair char).2

/-- The string in quotes. -/
def printString (text : String) : Text := '"' :: (text.toList.flatMap escape ++ ['"'])

/-! ### Scanning -/

/-- The character of an escape without digits. -/
def unescape (char : Char) : Option Char :=
  if char = '/' then some '/'
  else (shortEscapes.find? fun entry => entry.2 = char).map Prod.fst

/-- The characters and the escaped units up to the closing quote, and what is behind it. -/
def scanTokens : Text → Except Builtin (List (Char ⊕ ℕ) × Text)
  | [] => .error .jsonDecodeError
  | char :: rest =>
      if char = '"' then .ok ([], rest)
      else if char = '\\' then
        match rest with
        | [] => .error .jsonDecodeError
        | escape :: rest =>
            if escape = 'u' then
              match rest with
              | first :: second :: third :: fourth :: rest =>
                  match hexUnit first second third fourth with
                  | some unit => (scanTokens rest).map fun scanned =>
                      (.inr unit :: scanned.1, scanned.2)
                  | none => .error .jsonDecodeError
              | _ => .error .jsonDecodeError
            else
              match unescape escape with
              | some char => (scanTokens rest).map fun scanned =>
                  (.inl char :: scanned.1, scanned.2)
              | none => .error .jsonDecodeError
      else if char.toNat < 0x20 then .error .jsonDecodeError
      else (scanTokens rest).map fun scanned => (.inl char :: scanned.1, scanned.2)

def isHigh (unit : ℕ) : Bool := decide (0xd800 ≤ unit ∧ unit ≤ 0xdbff)

def isLow (unit : ℕ) : Bool := decide (0xdc00 ≤ unit ∧ unit ≤ 0xdfff)

/-- The character of one unit. A unit of a pair without the other, which is no character
here, is read as the replacement character. -/
def ofUnit (unit : ℕ) : Char := if isHigh unit || isLow unit then '\ufffd' else Char.ofNat unit

/-- The text of the scanned tokens. -/
def combine : List (Char ⊕ ℕ) → Text
  | [] => []
  | .inl char :: rest => char :: combine rest
  | .inr unit :: rest =>
      match rest with
      | .inr low :: others =>
          if isHigh unit && isLow low then
            Char.ofNat (0x10000 + (unit - 0xd800) * 0x400 + (low - 0xdc00)) :: combine others
          else ofUnit unit :: combine (.inr low :: others)
      | [] => [ofUnit unit]
      | .inl char :: others => ofUnit unit :: combine (.inl char :: others)

/-- The string behind an opening quote. -/
def scanString (text : Text) : Except Builtin (String × Text) :=
  (scanTokens text).map fun scanned => (String.ofList (combine scanned.1), scanned.2)

/-! ### The round trip -/

/-- What the escape of a character is scanned to. -/
def tokens (char : Char) : List (Char ⊕ ℕ) :=
  if (shortEscapes.lookup char).isSome ∨ 0x20 ≤ char.toNat ∧ char.toNat < 0x7f then [.inl char]
  else if char.toNat < 0x10000 then [.inr char.toNat]
  else [.inr (unitPair char).1, .inr (unitPair char).2]

theorem scanTokens_quote (rest : Text) : scanTokens ('"' :: rest) = .ok ([], rest) := by
  rw [scanTokens.eq_def]
  dsimp only
  rw [if_pos rfl]

theorem scanTokens_plain {char : Char} (quote : char ≠ '"') (backslash : char ≠ '\\')
    (printable : 0x20 ≤ char.toNat) (rest : Text) : scanTokens (char :: rest) =
      (scanTokens rest).map fun scanned => (.inl char :: scanned.1, scanned.2) := by
  rw [scanTokens.eq_def]
  dsimp only
  rw [if_neg quote, if_neg backslash, if_neg (not_lt.mpr printable)]

theorem scanTokens_short {char short : Char} (differ : short ≠ 'u')
    (back : unescape short = some char) (rest : Text) : scanTokens ('\\' :: short :: rest) =
      (scanTokens rest).map fun scanned => (.inl char :: scanned.1, scanned.2) := by
  rw [scanTokens.eq_def]
  dsimp only
  rw [if_neg (by decide), if_pos rfl, if_neg differ, back]

theorem scanTokens_unitEscape {unit : ℕ} (fits : unit < 65536) (rest : Text) :
    scanTokens (unitEscape unit ++ rest) =
      (scanTokens rest).map fun scanned => (.inr unit :: scanned.1, scanned.2) := by
  rw [unitEscape, scanTokens.eq_def]
  dsimp only [List.cons_append, List.nil_append]
  rw [if_neg (by decide), if_pos rfl, if_pos rfl, hexUnit_hexDigit fits]

theorem unescape_of_shortEscapes {char short : Char}
    (found : shortEscapes.lookup char = some short) : short ≠ 'u' ∧ unescape short = some char := by
  obtain ⟨front, back, whole, -⟩ := List.lookup_eq_some_iff.mp found
  have member : (char, short) ∈ shortEscapes := by
    rw [whole]
    exact List.mem_append_right front List.mem_cons_self
  have each : ∀ entry ∈ shortEscapes, entry.2 ≠ 'u' ∧ unescape entry.2 = some entry.1 := by decide
  exact each _ member

/-- A character is no unit of a pair, and is made of two when it is behind the others. -/
theorem Char.toNat_cases (char : Char) :
    char.toNat < 0xd800 ∨ 0xdfff < char.toNat ∧ char.toNat < 0x110000 := char.valid

theorem unitPair_lt (char : Char) : (unitPair char).1 < 65536 ∧ (unitPair char).2 < 65536 := by
  have range := Char.toNat_cases char
  simp only [unitPair]
  omega

theorem scanTokens_escape (char : Char) (rest : Text) :
    scanTokens (escape char ++ rest) =
      (scanTokens rest).map fun scanned => (tokens char ++ scanned.1, scanned.2) := by
  unfold escape tokens
  cases found : shortEscapes.lookup char with
  | some short =>
      obtain ⟨differ, back⟩ := unescape_of_shortEscapes found
      rw [if_pos (Or.inl (Option.isSome_some))]
      exact scanTokens_short differ back rest
  | none =>
      dsimp only
      by_cases plain : 0x20 ≤ char.toNat ∧ char.toNat < 0x7f
      · have quote : char ≠ '"' := by
          rintro rfl
          cases found
        have backslash : char ≠ '\\' := by
          rintro rfl
          cases found
        rw [if_pos plain, if_pos (Or.inr plain)]
        exact scanTokens_plain quote backslash plain.1 rest
      · have other : ¬ ((none : Option Char).isSome = true ∨ 0x20 ≤ char.toNat ∧ char.toNat < 0x7f) := by
          rintro (some | here)
          · cases some
          · exact plain here
        rw [if_neg plain, if_neg other]
        by_cases single : char.toNat < 0x10000
        · rw [if_pos single, if_pos single, scanTokens_unitEscape single]
          rfl
        · rw [if_neg single, if_neg single, List.append_assoc,
            scanTokens_unitEscape (unitPair_lt char).1, scanTokens_unitEscape (unitPair_lt char).2]
          cases scanTokens rest <;> rfl

theorem combine_unit {char : Char} (alone : isHigh char.toNat = false)
    (unit : ofUnit char.toNat = char) (rest : List (Char ⊕ ℕ)) :
    combine (.inr char.toNat :: rest) = char :: combine rest := by
  rw [combine.eq_def]
  dsimp only
  cases rest with
  | nil =>
      simp only [unit]
      rfl
  | cons token rest =>
      cases token with
      | inl other => simp only [unit]
      | inr low => simp only [unit, alone, Bool.false_and, if_neg Bool.false_ne_true]

theorem combine_pair {char : Char} (double : 0x10000 ≤ char.toNat) (rest : List (Char ⊕ ℕ)) :
    combine (.inr (unitPair char).1 :: .inr (unitPair char).2 :: rest) = char :: combine rest := by
  have range := Char.toNat_cases char
  have high : isHigh (unitPair char).1 = true := by
    refine decide_eq_true ?_
    simp only [unitPair]
    omega
  have low : isLow (unitPair char).2 = true := by
    refine decide_eq_true ?_
    simp only [unitPair]
    omega
  have back : 0x10000 + ((unitPair char).1 - 0xd800) * 0x400 + ((unitPair char).2 - 0xdc00) =
      char.toNat := by
    simp only [unitPair]
    omega
  rw [combine.eq_def]
  dsimp only
  rw [high, low, if_pos (by rfl), back, Char.ofNat_toNat]

theorem combine_tokens (char : Char) (rest : List (Char ⊕ ℕ)) :
    combine (tokens char ++ rest) = char :: combine rest := by
  unfold tokens
  by_cases plain : (shortEscapes.lookup char).isSome ∨ 0x20 ≤ char.toNat ∧ char.toNat < 0x7f
  · rw [if_pos plain]
    rfl
  · rw [if_neg plain]
    by_cases single : char.toNat < 0x10000
    · have range := Char.toNat_cases char
      have high : isHigh char.toNat = false := by
        simp only [isHigh, decide_eq_false_iff_not]
        omega
      have low : isLow char.toNat = false := by
        simp only [isLow, decide_eq_false_iff_not]
        omega
      rw [if_pos single]
      refine combine_unit high ?_ rest
      rw [ofUnit, high, low, if_neg (by decide), Char.ofNat_toNat]
    · rw [if_neg single]
      exact combine_pair (not_lt.mp single) rest

/-- **Strings.** A printed string is scanned to itself, whatever follows it. -/
theorem scanString_printString (text : String) (rest : Text) :
    scanString (text.toList.flatMap escape ++ '"' :: rest) = .ok (text, rest) := by
  have scanned (chars : Text) : scanTokens (chars.flatMap escape ++ '"' :: rest) =
      .ok (chars.flatMap tokens, rest) := by
    induction chars with
    | nil => exact scanTokens_quote rest
    | cons char chars ih =>
        rw [List.flatMap_cons, List.append_assoc, scanTokens_escape, ih]
        rfl
  have combined (chars : Text) : combine (chars.flatMap tokens) = chars := by
    induction chars with
    | nil => rfl
    | cons char chars ih => rw [List.flatMap_cons, combine_tokens, ih]
  rw [scanString, scanned]
  change Except.ok (String.ofList (combine (text.toList.flatMap tokens)), rest) = _
  rw [combined, String.ofList_toList]

end Json
