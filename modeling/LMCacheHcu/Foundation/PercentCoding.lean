import LMCacheHcu.Foundation.Text

/-! # Percent coding

`urllib.parse.quote` with no safe characters of its own: letters, digits and
`_.-~` stay, every other character becomes the bytes of its UTF-8 encoding, each
as `%` with two digits.
-/

namespace PercentCoding

/-- The characters that `quote` keeps. -/
def unreserved (char : Char) : Bool :=
  ('a' ≤ char && char ≤ 'z') || ('A' ≤ char && char ≤ 'Z') || ('0' ≤ char && char ≤ '9') ||
    char == '_' || char == '.' || char == '-' || char == '~'

def hexDigit (digit : ℕ) : Char :=
  if digit < 10 then Char.ofNat ('0'.toNat + digit) else Char.ofNat ('A'.toNat + (digit - 10))

/-- The number of a digit, the digits being those that `hexDigit` writes. -/
def digitValue (char : Char) : ℕ :=
  if char ≤ '9' then char.toNat - '0'.toNat else char.toNat - 'A'.toNat + 10

def escape (byte : UInt8) : Text := ['%', hexDigit (byte.toNat / 16), hexDigit (byte.toNat % 16)]

def quoteChar (char : Char) : Text :=
  if unreserved char then [char] else (String.utf8EncodeChar char).flatMap escape

/-- `quote(text, safe="")`. -/
def quote (text : Text) : Text := text.flatMap quoteChar

/-- The bytes of a text, with the escapes read. -/
def bytesOf : Text → List UInt8
  | '%' :: high :: low :: rest =>
      UInt8.ofNat (16 * digitValue high + digitValue low) :: bytesOf rest
  | char :: rest => String.utf8EncodeChar char ++ bytesOf rest
  | [] => []

/-- `unquote(text)`, for a text whose bytes are valid UTF-8. -/
def unquote (text : Text) : Text :=
  match (bytesOf text).toByteArray.utf8Decode? with
  | some chars => chars.toList
  | none => text

theorem digitValue_hexDigit {digit : ℕ} (small : digit < 16) :
    digitValue (hexDigit digit) = digit := by
  interval_cases digit <;> rfl

theorem bytesOf_escape (byte : UInt8) (rest : Text) :
    bytesOf (escape byte ++ rest) = byte :: bytesOf rest := by
  have small : byte.toNat < 256 := byte.toNat_lt
  have same : UInt8.ofNat (16 * digitValue (hexDigit (byte.toNat / 16)) +
      digitValue (hexDigit (byte.toNat % 16))) = byte := by
    rw [digitValue_hexDigit (by omega), digitValue_hexDigit (by omega), Nat.div_add_mod,
      UInt8.ofNat_toNat]
  rw [escape, List.cons_append, List.cons_append, List.cons_append, List.nil_append, bytesOf, same]

theorem bytesOf_escapes (bytes : List UInt8) (rest : Text) :
    bytesOf (bytes.flatMap escape ++ rest) = bytes ++ bytesOf rest := by
  induction bytes with
  | nil => rfl
  | cons byte bytes ih =>
      rw [List.flatMap_cons, List.append_assoc, bytesOf_escape, ih, List.cons_append]

theorem bytesOf_cons {char : Char} (plain : char ≠ '%') (rest : Text) :
    bytesOf (char :: rest) = String.utf8EncodeChar char ++ bytesOf rest := by
  match rest with
  | [] => rw [bytesOf]; simp [plain]
  | [_] => rw [bytesOf]; simp [plain]
  | _ :: _ :: _ => rw [bytesOf]; simp [plain]

theorem bytesOf_quoteChar (char : Char) (rest : Text) :
    bytesOf (quoteChar char ++ rest) = String.utf8EncodeChar char ++ bytesOf rest := by
  by_cases kept : unreserved char = true
  · have plain : char ≠ '%' := fun same => absurd (same ▸ kept) (by decide)
    rw [quoteChar, if_pos kept, List.singleton_append, bytesOf_cons plain]
  · rw [quoteChar, if_neg kept, bytesOf_escapes]

theorem bytesOf_quote (text : Text) :
    bytesOf (quote text) = text.flatMap String.utf8EncodeChar := by
  induction text with
  | nil => rfl
  | cons char text ih =>
      rw [quote, List.flatMap_cons, bytesOf_quoteChar, ← quote, ih, List.flatMap_cons]

/-- **Quoting loses nothing.** -/
theorem unquote_quote (text : Text) : unquote (quote text) = text := by
  have bytes : (bytesOf (quote text)).toByteArray = text.utf8Encode := by
    rw [bytesOf_quote]
    rfl
  rw [unquote, bytes, List.utf8Decode?_utf8Encode]

theorem quote_injective : Function.Injective quote :=
  Function.LeftInverse.injective unquote_quote

theorem hexDigit_ne_slash {digit : ℕ} (small : digit < 16) : hexDigit digit ≠ Text.slash := by
  interval_cases digit <;> decide

/-- A quoted text is one path component. -/
theorem slash_not_mem_quote (text : Text) : Text.slash ∉ quote text := by
  rw [quote, List.mem_flatMap]
  rintro ⟨char, -, member⟩
  by_cases kept : unreserved char = true
  · rw [quoteChar, if_pos kept, List.mem_singleton] at member
    exact absurd (member ▸ kept) (by decide)
  · rw [quoteChar, if_neg kept, List.mem_flatMap] at member
    obtain ⟨byte, -, member⟩ := member
    have small : byte.toNat < 256 := byte.toNat_lt
    rw [escape, List.mem_cons, List.mem_cons, List.mem_singleton] at member
    rcases member with same | same | same
    · exact absurd same (by decide)
    · exact hexDigit_ne_slash (by omega) same.symm
    · exact hexDigit_ne_slash (by omega) same.symm

end PercentCoding
