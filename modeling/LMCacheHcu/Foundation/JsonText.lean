import LMCacheHcu.Foundation.Checked
import LMCacheHcu.Foundation.JsonStrings
import LMCacheHcu.Foundation.PythonValues

/-! # JSON documents

`dumps` prints a value with a blank behind each comma and colon, and `loads` reads every
document of the grammar. An object is printed in the order of its entries; of entries
with the same key the last value is read, at the place of the first one. How a float is
printed and read is a parameter. The nesting that the reader can do is bounded by the
length of the text.
-/

namespace Json

open Exceptions Python

/-- How a float is printed, and what the literals of floats are read to. -/
structure FloatText (F : Type) where
  toText : F → Text
  ofText : Text → F

variable {F : Type} (floats : FloatText F)

/-! ### Printing -/

def printInt : ℤ → Text
  | .ofNat number => Nat.toDigits 10 number
  | .negSucc number => '-' :: Nat.toDigits 10 (number + 1)

mutual

def print : Value F → Text
  | .none => "null".toList
  | .bool true => "true".toList
  | .bool false => "false".toList
  | .int number => printInt number
  | .float number => floats.toText number
  | .text string => printString string
  | .list items => '[' :: (printItems items ++ [']'])
  | .dict entries => '{' :: (printEntries entries ++ ['}'])

def printItems : List (Value F) → Text
  | [] => []
  | [item] => print item
  | item :: next :: items => print item ++ ',' :: ' ' :: printItems (next :: items)

def printEntries : List (String × Value F) → Text
  | [] => []
  | [(key, value)] => printString key ++ ':' :: ' ' :: print value
  | (key, value) :: next :: entries =>
      printString key ++ ':' :: ' ' :: (print value ++ ',' :: ' ' :: printEntries (next :: entries))

end

/-! ### Numbers -/

def scanNatural : Text → Option (Text × Text)
  | [] => none
  | first :: rest =>
      if first = '0' then some (['0'], rest)
      else if first.isDigit then
        some (first :: rest.takeWhile Char.isDigit, rest.dropWhile Char.isDigit)
      else none

def scanInteger : Text → Option (Text × Text)
  | [] => none
  | first :: rest =>
      if first = '-' then (scanNatural rest).map fun scanned => ('-' :: scanned.1, scanned.2)
      else scanNatural (first :: rest)

/-- A point with digits behind it, if there is one. -/
def scanFraction : Text → Text × Text
  | [] => ([], [])
  | first :: rest =>
      if first = '.' ∧ rest.takeWhile Char.isDigit ≠ [] then
        (first :: rest.takeWhile Char.isDigit, rest.dropWhile Char.isDigit)
      else ([], first :: rest)

/-- The sign of an exponent, if there is one. -/
def scanSign : Text → Text × Text
  | [] => ([], [])
  | first :: rest => if first = '+' ∨ first = '-' then ([first], rest) else ([], first :: rest)

/-- An `e` with digits behind it, if there is one. -/
def scanExponent : Text → Text × Text
  | [] => ([], [])
  | first :: rest =>
      let (sign, body) := scanSign rest
      if (first = 'e' ∨ first = 'E') ∧ body.takeWhile Char.isDigit ≠ [] then
        (first :: (sign ++ body.takeWhile Char.isDigit), body.dropWhile Char.isDigit)
      else ([], first :: rest)

def integerOf : Text → ℤ
  | [] => 0
  | first :: rest =>
      if first = '-' then -(Nat.ofDigitChars 10 rest 0 : ℕ) else Nat.ofDigitChars 10 (first :: rest) 0

/-- A number with neither a fraction nor an exponent is an integer. -/
def scanNumber (text : Text) : Option (Value F × Text) :=
  (scanInteger text).map fun (integer, rest) =>
    let (fraction, rest) := scanFraction rest
    let (exponent, rest) := scanExponent rest
    if fraction = [] ∧ exponent = [] then (.int (integerOf integer), rest)
    else (.float (floats.ofText (integer ++ fraction ++ exponent)), rest)

/-! ### Reading -/

def words : List (Text × Value F) :=
  [("null".toList, .none), ("true".toList, .bool true), ("false".toList, .bool false),
    ("NaN".toList, .float (floats.ofText "NaN".toList)),
    ("Infinity".toList, .float (floats.ofText "Infinity".toList)),
    ("-Infinity".toList, .float (floats.ofText "-Infinity".toList))]

def scanWord (text : Text) : Option (Value F × Text) :=
  (words floats).findSome? fun (word, value) =>
    if word <+: text then some (value, text.drop word.length) else none

def isBlank (char : Char) : Bool := char = ' ' || char = '\t' || char = '\n' || char = '\r'

def skipBlanks (text : Text) : Text := text.dropWhile isBlank

/-- `entries[key] = value`. -/
def setItem {V : Type} (key : String) (value : V) : List (String × V) → List (String × V)
  | [] => [(key, value)]
  | entry :: entries =>
      if entry.1 = key then (key, value) :: entries else entry :: setItem key value entries

/-- `dict(pairs)`. -/
def dictOf {V : Type} (pairs : List (String × V)) : List (String × V) :=
  pairs.foldl (fun entries pair => setItem pair.1 pair.2 entries) []

mutual

def parseValue : ℕ → Text → Except Builtin (Value F × Text)
  | 0, _ => .error .recursionError
  | _ + 1, [] => .error .jsonDecodeError
  | fuel + 1, first :: rest =>
      if first = '"' then (scanString rest).map fun scanned => (.text scanned.1, scanned.2)
      else if first = '[' then
        if (skipBlanks rest).head? = some ']' then .ok (.list [], (skipBlanks rest).tail)
        else (parseItems fuel (skipBlanks rest)).map fun scanned => (.list scanned.1, scanned.2)
      else if first = '{' then
        if (skipBlanks rest).head? = some '}' then .ok (.dict [], (skipBlanks rest).tail)
        else (parseEntries fuel (skipBlanks rest)).map fun scanned =>
          (.dict (dictOf scanned.1), scanned.2)
      else
        match (scanNumber floats (first :: rest)).or (scanWord floats (first :: rest)) with
        | some scanned => .ok scanned
        | none => .error .jsonDecodeError

/-- The items from the first one on, and what is behind the bracket. -/
def parseItems : ℕ → Text → Except Builtin (List (Value F) × Text)
  | 0, _ => .error .recursionError
  | fuel + 1, text => do
      let (item, rest) ← parseValue fuel text
      if (skipBlanks rest).head? = some ',' then
        let (items, rest) ← parseItems fuel (skipBlanks (skipBlanks rest).tail)
        return (item :: items, rest)
      else if (skipBlanks rest).head? = some ']' then return ([item], (skipBlanks rest).tail)
      else .error .jsonDecodeError

/-- The entries from the first one on, and what is behind the brace. -/
def parseEntries : ℕ → Text → Except Builtin (List (String × Value F) × Text)
  | 0, _ => .error .recursionError
  | fuel + 1, text =>
      if text.head? ≠ some '"' then .error .jsonDecodeError
      else do
        let (key, rest) ← scanString text.tail
        if (skipBlanks rest).head? ≠ some ':' then .error .jsonDecodeError
        else do
          let (value, rest) ← parseValue fuel (skipBlanks (skipBlanks rest).tail)
          if (skipBlanks rest).head? = some ',' then
            let (entries, rest) ← parseEntries fuel (skipBlanks (skipBlanks rest).tail)
            return ((key, value) :: entries, rest)
          else if (skipBlanks rest).head? = some '}' then
            return ([(key, value)], (skipBlanks rest).tail)
          else .error .jsonDecodeError

end

/-- `json.loads`, of a text. -/
def loads (text : Text) : Except Builtin (Value F) :=
  if text.head? = some '\ufeff' then .error .jsonDecodeError
  else do
    let (value, rest) ← parseValue floats (2 * text.length + 1) (skipBlanks text)
    if skipBlanks rest = [] then return value else .error .jsonDecodeError

/-! ### The round trip -/

/-- No character that a number could go on with is next. -/
def Delimited (rest : Text) : Prop :=
  ∀ char ∈ rest.head?, char.isDigit = false ∧ char ≠ '.' ∧ char ≠ 'e' ∧ char ≠ 'E'

mutual

/-- A value without floats, whose objects have each key once. -/
def Plain : Value F → Prop
  | .none | .bool _ | .int _ | .text _ => True
  | .float _ => False
  | .list items => PlainItems items
  | .dict entries => (entries.map Prod.fst).Nodup ∧ PlainEntries entries

def PlainItems : List (Value F) → Prop
  | [] => True
  | item :: items => Plain item ∧ PlainItems items

def PlainEntries : List (String × Value F) → Prop
  | [] => True
  | (_, value) :: entries => Plain value ∧ PlainEntries entries

end

section Numbers

theorem isDigit_toDigits (number : ℕ) : ∀ char ∈ Nat.toDigits 10 number, char.isDigit = true :=
  fun _ member => Nat.isDigit_of_mem_toDigits (by decide) (by decide) member

/-- Only zero begins with a zero. -/
theorem toDigits_head (number : ℕ) : ∃ first rest, Nat.toDigits 10 number = first :: rest ∧
    (first = '0' → rest = []) := by
  induction number using Nat.strong_induction_on with
  | _ number ih =>
      by_cases small : number < 10
      · exact ⟨_, [], Nat.toDigits_of_lt_base small, fun _ => rfl⟩
      · have large : 10 ≤ number := not_lt.mp small
        obtain ⟨first, rest, front, zero⟩ := ih (number / 10) (by omega)
        refine ⟨first, rest ++ [Nat.digitChar (number % 10)], ?_, fun leading => ?_⟩
        · rw [Nat.toDigits_of_base_le (by decide) large, front, List.cons_append]
        · rw [leading, zero leading] at front
          have value := congrArg (fun digits => Nat.ofDigitChars 10 digits 0) front
          simp only [Nat.ofDigitChars_ten_toDigits] at value
          have positive : number / 10 ≠ 0 := by omega
          exact absurd value positive

variable {rest : Text}

theorem span_digits {digits : Text} (all : ∀ char ∈ digits, char.isDigit = true)
    (delimited : Delimited rest) : (digits ++ rest).takeWhile Char.isDigit = digits ∧
      (digits ++ rest).dropWhile Char.isDigit = rest := by
  have stops : rest.takeWhile Char.isDigit = [] ∧ rest.dropWhile Char.isDigit = rest := by
    cases rest with
    | nil => exact ⟨rfl, rfl⟩
    | cons char rest =>
        have other := (delimited char rfl).1
        rw [List.takeWhile_cons, List.dropWhile_cons, other]
        exact ⟨rfl, rfl⟩
  rw [List.takeWhile_append_of_pos all, List.dropWhile_append_of_pos all, stops.1, stops.2,
    List.append_nil]
  exact ⟨rfl, rfl⟩

theorem scanNatural_toDigits (number : ℕ) (delimited : Delimited rest) :
    scanNatural (Nat.toDigits 10 number ++ rest) = some (Nat.toDigits 10 number, rest) := by
  obtain ⟨first, digits, front, zero⟩ := toDigits_head number
  have all := isDigit_toDigits number
  rw [front] at all ⊢
  rw [List.cons_append, scanNatural]
  by_cases leading : first = '0'
  · rw [if_pos leading, zero leading, leading]
    rfl
  · obtain ⟨taken, left⟩ :=
      span_digits (fun char member => all char (List.mem_cons_of_mem first member)) delimited
    rw [if_neg leading, if_pos (all first List.mem_cons_self), taken, left]

theorem toDigits_head_ne_minus (number : ℕ) (rest : Text) :
    ∃ first digits, Nat.toDigits 10 number ++ rest = first :: digits ∧ first ≠ '-' ∧
      first.isDigit = true := by
  obtain ⟨first, digits, front, -⟩ := toDigits_head number
  have digit : first.isDigit = true :=
    isDigit_toDigits number first (front ▸ List.mem_cons_self)
  refine ⟨first, digits ++ rest, by rw [front, List.cons_append], ?_, digit⟩
  rintro rfl
  exact absurd digit (by decide)

theorem scanInteger_printInt (number : ℤ) (delimited : Delimited rest) :
    scanInteger (printInt number ++ rest) = some (printInt number, rest) := by
  cases number with
  | ofNat number =>
      rw [printInt, ← scanNatural_toDigits number delimited]
      obtain ⟨first, digits, front, minus, -⟩ := toDigits_head_ne_minus number rest
      rw [front, scanInteger, if_neg minus]
  | negSucc number =>
      rw [printInt, List.cons_append, scanInteger, if_pos rfl,
        scanNatural_toDigits (number + 1) delimited]
      rfl

theorem integerOf_printInt (number : ℤ) : integerOf (printInt number) = number := by
  cases number with
  | ofNat number =>
      obtain ⟨first, digits, front, minus, -⟩ := toDigits_head_ne_minus number []
      rw [List.append_nil] at front
      rw [printInt, front, integerOf, if_neg minus, ← front, Nat.ofDigitChars_ten_toDigits]
      rfl
  | negSucc number =>
      rw [printInt, integerOf, if_pos rfl, Nat.ofDigitChars_ten_toDigits]
      rfl

theorem scan_delimited (delimited : Delimited rest) :
    scanFraction rest = ([], rest) ∧ scanExponent rest = ([], rest) := by
  cases rest with
  | nil => exact ⟨rfl, rfl⟩
  | cons first rest =>
      obtain ⟨-, point, lower, upper⟩ := delimited first rfl
      refine ⟨if_neg fun both => point both.1, ?_⟩
      rw [scanExponent]
      exact if_neg fun both => both.1.elim lower upper

theorem scanNumber_printInt (number : ℤ) (delimited : Delimited rest) :
    scanNumber floats (printInt number ++ rest) = some (.int number, rest) := by
  obtain ⟨fraction, exponent⟩ := scan_delimited delimited
  rw [scanNumber, scanInteger_printInt number delimited, Option.map_some]
  simp only [fraction, exponent, and_self, if_true, integerOf_printInt]

end Numbers

theorem setItem_of_not_mem {V : Type} {key : String} {entries : List (String × V)}
    (absent : key ∉ entries.map Prod.fst) (value : V) :
    setItem key value entries = entries ++ [(key, value)] := by
  induction entries with
  | nil => rfl
  | cons entry entries ih =>
      rw [List.map_cons, List.mem_cons, not_or] at absent
      rw [setItem, if_neg (Ne.symm absent.1), ih absent.2, List.cons_append]

theorem dictOf_of_nodup {V : Type} {pairs : List (String × V)}
    (nodup : (pairs.map Prod.fst).Nodup) : dictOf pairs = pairs := by
  induction pairs using List.reverseRecOn with
  | nil => rfl
  | append_singleton pairs pair ih =>
      rw [List.map_append, List.nodup_append] at nodup
      have absent : pair.1 ∉ pairs.map Prod.fst := fun member =>
        nodup.2.2 _ member _ List.mem_cons_self rfl
      rw [dictOf, List.foldl_append, ← dictOf, ih nodup.1]
      exact setItem_of_not_mem absent pair.2

theorem of_isDigit {char : Char} (digit : char.isDigit = true) :
    isBlank char = false ∧ char ≠ '"' ∧ char ≠ '[' ∧ char ≠ '{' ∧ char ≠ ']' ∧
      char ≠ '\ufeff' := by
  have differ (other : Char) (nodigit : other.isDigit = false) : char ≠ other := by
    rintro rfl
    rw [digit] at nodigit
    cases nodigit
  refine ⟨?_, differ _ (by decide), differ _ (by decide), differ _ (by decide),
    differ _ (by decide), differ _ (by decide)⟩
  simp only [isBlank, Bool.or_eq_false_iff, decide_eq_false_iff_not]
  exact ⟨⟨⟨differ _ (by decide), differ _ (by decide)⟩, differ _ (by decide)⟩, differ _ (by decide)⟩

/-- A printed value begins with a character that is neither blank nor closes a list, nor
marks the order of the bytes. -/
theorem print_head (value : Value F) (plain : Plain value) : ∃ first rest,
    print floats value = first :: rest ∧ isBlank first = false ∧ first ≠ ']' ∧
      first ≠ '\ufeff' := by
  cases value with
  | none => exact ⟨_, _, rfl, by decide, by decide, by decide⟩
  | bool value =>
      cases value with
      | false => exact ⟨_, _, rfl, by decide, by decide, by decide⟩
      | true => exact ⟨_, _, rfl, by decide, by decide, by decide⟩
  | int number =>
      cases number with
      | ofNat number =>
          obtain ⟨first, digits, front, -, digit⟩ := toDigits_head_ne_minus number []
          rw [List.append_nil] at front
          obtain ⟨blank, -, -, -, bracket, mark⟩ := of_isDigit digit
          exact ⟨first, digits, by rw [print, printInt, front], blank, bracket, mark⟩
      | negSucc number => exact ⟨_, _, rfl, by decide, by decide, by decide⟩
  | float number => exact plain.elim
  | text string => exact ⟨_, _, rfl, by decide, by decide, by decide⟩
  | list items => exact ⟨_, _, rfl, by decide, by decide, by decide⟩
  | dict entries => exact ⟨_, _, rfl, by decide, by decide, by decide⟩

theorem skipBlanks_of_head {text : Text} (head : ∀ char ∈ text.head?, isBlank char = false) :
    skipBlanks text = text := by
  cases text with
  | nil => rfl
  | cons first rest =>
      rw [skipBlanks, List.dropWhile_cons, head first rfl]
      rfl

theorem printItems_head {item : Value F} (plain : Plain item) (items : List (Value F)) :
    ∃ first rest, printItems floats (item :: items) = first :: rest ∧ isBlank first = false ∧
      first ≠ ']' := by
  obtain ⟨first, rest, front, blank, bracket, -⟩ := print_head floats item plain
  cases items with
  | nil => exact ⟨first, rest, front, blank, bracket⟩
  | cons next items =>
      refine ⟨first, rest ++ ',' :: ' ' :: printItems floats (next :: items), ?_, blank, bracket⟩
      rw [printItems, front, List.cons_append]

theorem printEntries_head (entry : String × Value F) (entries : List (String × Value F)) :
    ∃ rest, printEntries floats (entry :: entries) = '"' :: rest := by
  obtain ⟨key, value⟩ := entry
  cases entries with
  | nil => exact ⟨_, rfl⟩
  | cons next entries => exact ⟨_, rfl⟩

theorem parseValue_number (number : ℤ) {rest : Text} (delimited : Delimited rest) (fuel : ℕ) :
    parseValue floats (fuel + 1) (printInt number ++ rest) = .ok (.int number, rest) := by
  have scanned := scanNumber_printInt floats number delimited
  have front : ∃ first digits, printInt number ++ rest = first :: digits ∧ first ≠ '"' ∧
      first ≠ '[' ∧ first ≠ '{' := by
    cases number with
    | ofNat number =>
        obtain ⟨first, digits, front, -, digit⟩ := toDigits_head_ne_minus number rest
        obtain ⟨-, quote, bracket, brace, -, -⟩ := of_isDigit digit
        exact ⟨first, digits, front, quote, bracket, brace⟩
    | negSucc number => exact ⟨_, _, rfl, by decide, by decide, by decide⟩
  obtain ⟨first, digits, front, quote, bracket, brace⟩ := front
  rw [front] at scanned ⊢
  rw [parseValue, if_neg quote, if_neg bracket, if_neg brace, scanned]
  rfl

/-- The words are read as their values. -/
theorem parseValue_word {first : Char} {letters : Text} {value : Value F}
    (quote : first ≠ '"') (bracket : first ≠ '[') (brace : first ≠ '{')
    (rest : Text) (number : scanNumber floats (first :: (letters ++ rest)) = none)
    (word : scanWord floats (first :: (letters ++ rest)) = some (value, rest)) (fuel : ℕ) :
    parseValue floats (fuel + 1) (first :: letters ++ rest) = .ok (value, rest) := by
  rw [List.cons_append, parseValue, if_neg quote, if_neg bracket, if_neg brace, number, word]
  rfl

/-- What is read behind the value of an entry. -/
theorem parseEntries_entry (key : String) {value : Value F} (plain : Plain value) {after : Text}
    {fuel : ℕ} (read : parseValue floats fuel (print floats value ++ after) = .ok (value, after)) :
    parseEntries floats (fuel + 1)
        (printString key ++ ':' :: ' ' :: (print floats value ++ after)) =
      if (skipBlanks after).head? = some ',' then
        parseEntries floats fuel (skipBlanks (skipBlanks after).tail) >>= fun scanned =>
          pure ((key, value) :: scanned.1, scanned.2)
      else if (skipBlanks after).head? = some '}' then
        pure ([(key, value)], (skipBlanks after).tail)
      else .error .jsonDecodeError := by
  obtain ⟨first, text, front, blank, -⟩ := print_head floats value plain
  have skipped : skipBlanks (' ' :: (print floats value ++ after)) = print floats value ++ after := by
    rw [front]
    change skipBlanks (first :: (text ++ after)) = _
    exact skipBlanks_of_head fun char here => (Option.some.inj here) ▸ blank
  rw [printString, List.cons_append, List.append_assoc, List.singleton_append, parseEntries,
    List.head?_cons, if_neg (not_not.mpr rfl), List.tail_cons, scanString_printString,
    Checked.ok_bind]
  change (if (skipBlanks (':' :: ' ' :: (print floats value ++ after))).head? ≠ some ':' then _
    else _) = _
  rw [if_neg (by exact not_not.mpr rfl)]
  change (parseValue floats fuel (skipBlanks (' ' :: (print floats value ++ after))) >>= _) = _
  rw [skipped, read, Checked.ok_bind]

mutual

/-- **The round trip.** A printed value is read to itself, whatever follows it. -/
theorem parseValue_print : ∀ value : Value F, Plain value → ∀ (rest : Text) (fuel : ℕ),
    Delimited rest → 2 * (print floats value ++ rest).length < fuel →
      parseValue floats fuel (print floats value ++ rest) = .ok (value, rest)
  | _, _, _, 0, _, enough => absurd enough (Nat.not_lt_zero _)
  | .none, _, rest, fuel + 1, _, _ =>
      parseValue_word floats (by decide) (by decide) (by decide) rest rfl rfl fuel
  | .bool true, _, rest, fuel + 1, _, _ =>
      parseValue_word floats (by decide) (by decide) (by decide) rest rfl rfl fuel
  | .bool false, _, rest, fuel + 1, _, _ =>
      parseValue_word floats (by decide) (by decide) (by decide) rest rfl rfl fuel
  | .int number, _, _, fuel + 1, delimited, _ => parseValue_number floats number delimited fuel
  | .float _, plain, _, _, _, _ => plain.elim
  | .text string, _, rest, fuel + 1, _, _ => by
      rw [print, printString, List.cons_append, List.append_assoc, parseValue, if_pos rfl,
        List.singleton_append, scanString_printString]
      rfl
  | .list [], _, rest, fuel + 1, _, _ => by
      rfl
  | .list (item :: items), plain, rest, fuel + 1, _, enough => by
      obtain ⟨first, text, front, blank, bracket⟩ := printItems_head floats plain.1 items
      have skipped : skipBlanks (printItems floats (item :: items) ++ ']' :: rest) =
          printItems floats (item :: items) ++ ']' :: rest := by
        rw [front, List.cons_append]
        exact skipBlanks_of_head fun char here => (Option.some.inj here) ▸ blank
      have opens : (printItems floats (item :: items) ++ ']' :: rest).head? ≠ some ']' := by
        rw [front, List.cons_append, List.head?_cons, Ne, Option.some.injEq]
        exact bracket
      rw [print, List.cons_append, List.append_assoc, List.singleton_append] at enough ⊢
      rw [List.length_cons] at enough
      rw [parseValue, if_neg (by decide), if_pos rfl, skipped, if_neg opens,
        parseItems_print (item :: items) (List.cons_ne_nil item items) plain rest fuel (by omega)]
      rfl
  | .dict [], _, rest, fuel + 1, _, _ => by
      rfl
  | .dict (entry :: entries), plain, rest, fuel + 1, _, enough => by
      obtain ⟨text, front⟩ := printEntries_head floats entry entries
      have skipped : skipBlanks (printEntries floats (entry :: entries) ++ '}' :: rest) =
          printEntries floats (entry :: entries) ++ '}' :: rest := by
        rw [front]
        rfl
      have opens : (printEntries floats (entry :: entries) ++ '}' :: rest).head? ≠ some '}' := by
        rw [front, List.cons_append, List.head?_cons]
        decide
      rw [print, List.cons_append, List.append_assoc, List.singleton_append] at enough ⊢
      rw [List.length_cons] at enough
      rw [parseValue, if_neg (by decide), if_neg (by decide), if_pos rfl, skipped, if_neg opens,
        parseEntries_print (entry :: entries) (List.cons_ne_nil entry entries) plain.2 rest fuel
          (by omega)]
      change Except.ok (Value.dict (dictOf (entry :: entries)), rest) = _
      rw [dictOf_of_nodup plain.1]

theorem parseItems_print : ∀ items : List (Value F), items ≠ [] → PlainItems items →
    ∀ (rest : Text) (fuel : ℕ), 2 * (printItems floats items ++ ']' :: rest).length + 1 < fuel →
      parseItems floats fuel (printItems floats items ++ ']' :: rest) = .ok (items, rest)
  | [], nonempty, _, _, _, _ => absurd rfl nonempty
  | _, _, _, _, 0, enough => absurd enough (Nat.not_lt_zero _)
  | [item], _, plain, rest, fuel + 1, enough => by
      have read := parseValue_print item plain.1 (']' :: rest) fuel (by
        intro char here
        cases here
        decide) (by
        rw [printItems] at enough
        omega)
      rw [printItems, parseItems, read]
      rfl
  | item :: next :: items, _, plain, rest, fuel + 1, enough => by
      obtain ⟨first, text, front, blank, -⟩ := printItems_head floats plain.2.1 items
      have length : (printItems floats (item :: next :: items) ++ ']' :: rest).length =
          (print floats item ++ ',' :: ' ' ::
            (printItems floats (next :: items) ++ ']' :: rest)).length := by
        rw [printItems, List.append_assoc]
        rfl
      rw [length] at enough
      have read := parseValue_print item plain.1
        (',' :: ' ' :: (printItems floats (next :: items) ++ ']' :: rest)) fuel (by
          intro char here
          cases here
          decide) (by omega)
      have others := parseItems_print (next :: items) (List.cons_ne_nil next items) plain.2 rest
        fuel (by
          simp only [List.length_append, List.length_cons] at enough ⊢
          omega)
      have skipped : skipBlanks (' ' :: (printItems floats (next :: items) ++ ']' :: rest)) =
          printItems floats (next :: items) ++ ']' :: rest := by
        rw [front]
        change skipBlanks (first :: (text ++ ']' :: rest)) = _
        exact skipBlanks_of_head fun char here => (Option.some.inj here) ▸ blank
      rw [printItems, List.append_assoc, parseItems]
      change (parseValue floats fuel (print floats item ++
        ',' :: ' ' :: (printItems floats (next :: items) ++ ']' :: rest)) >>= _) = _
      rw [read, Checked.ok_bind]
      change (parseItems floats fuel (skipBlanks (' ' :: (printItems floats (next :: items) ++
        ']' :: rest))) >>= _) = _
      rw [skipped, others]
      rfl

theorem parseEntries_print : ∀ entries : List (String × Value F), entries ≠ [] →
    PlainEntries entries → ∀ (rest : Text) (fuel : ℕ),
      2 * (printEntries floats entries ++ '}' :: rest).length + 1 < fuel →
        parseEntries floats fuel (printEntries floats entries ++ '}' :: rest) = .ok (entries, rest)
  | [], nonempty, _, _, _, _ => absurd rfl nonempty
  | _, _, _, _, 0, enough => absurd enough (Nat.not_lt_zero _)
  | [(key, value)], _, plain, rest, fuel + 1, enough => by
      have whole : printEntries floats [(key, value)] ++ '}' :: rest =
          printString key ++ ':' :: ' ' :: (print floats value ++ '}' :: rest) := by
        rw [printEntries, List.append_assoc]
        rfl
      rw [whole] at enough ⊢
      have read := parseValue_print value plain.1 ('}' :: rest) fuel (by
        intro char here
        cases here
        decide) (by
        simp only [List.length_append, List.length_cons] at enough ⊢
        omega)
      rw [parseEntries_entry floats key plain.1 read]
      rfl
  | (key, value) :: next :: entries, _, plain, rest, fuel + 1, enough => by
      obtain ⟨text, front⟩ := printEntries_head floats next entries
      have whole : printEntries floats ((key, value) :: next :: entries) ++ '}' :: rest =
          printString key ++ ':' :: ' ' :: (print floats value ++
            ',' :: ' ' :: (printEntries floats (next :: entries) ++ '}' :: rest)) := by
        rw [printEntries, List.append_assoc]
        simp only [List.cons_append, List.append_assoc]
      rw [whole] at enough ⊢
      have read := parseValue_print value plain.1
        (',' :: ' ' :: (printEntries floats (next :: entries) ++ '}' :: rest)) fuel (by
          intro char here
          cases here
          decide) (by
          simp only [List.length_append, List.length_cons] at enough ⊢
          omega)
      have others := parseEntries_print (next :: entries) (List.cons_ne_nil next entries) plain.2
        rest fuel (by
          simp only [List.length_append, List.length_cons] at enough ⊢
          omega)
      have skipped : skipBlanks (' ' :: (printEntries floats (next :: entries) ++ '}' :: rest)) =
          printEntries floats (next :: entries) ++ '}' :: rest := by
        rw [front]
        rfl
      rw [parseEntries_entry floats key plain.1 read]
      change (parseEntries floats fuel (skipBlanks (' ' :: (printEntries floats (next :: entries) ++
        '}' :: rest))) >>= _) = _
      rw [skipped, others]
      rfl

end

/-- **Documents.** What `dumps` prints of a value without floats is loaded to it. -/
theorem loads_print (value : Value F) (plain : Plain value) :
    loads floats (print floats value) = .ok value := by
  obtain ⟨first, text, front, blank, -, mark⟩ := print_head floats value plain
  have read := parseValue_print floats value plain [] (2 * (print floats value).length + 1)
    (fun _ none => by cases none) (by
      rw [List.append_nil]
      omega)
  have skipped : skipBlanks (print floats value) = print floats value := by
    rw [front]
    exact skipBlanks_of_head fun char here => (Option.some.inj here) ▸ blank
  have unmarked : (print floats value).head? ≠ some '\ufeff' := by
    rw [front, List.head?_cons, Ne, Option.some.injEq]
    exact mark
  rw [List.append_nil] at read
  rw [loads, if_neg unmarked, skipped, read]
  rfl

end Json
