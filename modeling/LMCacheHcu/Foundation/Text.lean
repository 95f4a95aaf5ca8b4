import Mathlib.Data.List.DropRight
import Mathlib.Tactic

/-! # Text and paths

Text is a list of characters. This module has the operations on text that path
handling needs: the replacement of all occurrences of a word, from left to right
and without overlaps, and the joining of path components.
-/

abbrev Text := List Char

instance : LawfulBEq Text := inferInstance

namespace Text

/-! ### Words in a text -/

theorem append_ne_of_endings {left right first second : Text} (unlike : ¬ first <:+ second)
    (unlike' : ¬ second <:+ first) : left ++ first ≠ right ++ second := by
  intro same
  have ends : first <:+ right ++ second := same ▸ List.suffix_append left first
  rcases List.suffix_or_suffix_of_suffix ends (List.suffix_append right second) with short | long
  · exact unlike short
  · exact unlike' long

/-- A word without the separator is on one side of it. -/
theorem infix_append_cons {word left right : Text} {separator : Char} (inside : separator ∉ word) :
    word <:+: left ++ separator :: right ↔ word <:+: left ∨ word <:+: right := by
  constructor
  · rintro ⟨before, after, same⟩
    rw [List.append_assoc, List.append_eq_append_iff] at same
    rcases same with ⟨rest, rfl, same⟩ | ⟨rest, rfl, same⟩
    · rw [List.append_eq_append_iff] at same
      rcases same with ⟨more, rfl, -⟩ | ⟨more, rfl, same⟩
      · exact .inl ⟨before, more, (List.append_assoc ..)⟩
      · cases more with
        | nil => exact .inl ⟨before, [], by rw [List.append_nil, List.append_nil]⟩
        | cons head more =>
            cases same
            exact absurd (List.mem_append_right rest List.mem_cons_self) inside
    · cases rest with
      | nil =>
          rw [List.nil_append] at same
          cases word with
          | nil => exact .inl List.nil_infix
          | cons head word =>
              cases same
              exact absurd List.mem_cons_self inside
      | cons head rest =>
          cases same
          exact .inr ⟨rest, after, List.append_assoc ..⟩
  · rintro (here | there)
    · exact here.trans (List.prefix_append left _).isInfix
    · exact there.trans ((List.suffix_cons separator right).trans
        (List.suffix_append left _)).isInfix

/-! ### Replacing a word -/

/-- Replace a word after some characters that are left out. -/
def replaceFrom (old new : Text) : ℕ → Text → Text
  | _, [] => []
  | skip + 1, _ :: rest => replaceFrom old new skip rest
  | 0, head :: rest =>
      if old.isPrefixOf (head :: rest) then new ++ replaceFrom old new (old.length - 1) rest
      else head :: replaceFrom old new 0 rest

/-- `text.replace(old, new)`, for a word that is not empty. -/
def replace (old new text : Text) : Text := replaceFrom old new 0 text

section Replace

variable {old new : Text}

@[simp] theorem replace_nil : replace old new [] = [] := rfl

theorem replaceFrom_skip (skip : ℕ) (text : Text) :
    replaceFrom old new skip text = replace old new (text.drop skip) := by
  induction text generalizing skip with
  | nil => rw [List.drop_nil]; rfl
  | cons head rest ih =>
      cases skip with
      | zero => rfl
      | succ skip => rw [replaceFrom, ih, List.drop_succ_cons]

theorem replace_word (nonempty : old ≠ []) (rest : Text) :
    replace old new (old ++ rest) = new ++ replace old new rest := by
  obtain ⟨head, tail, rfl⟩ := List.exists_cons_of_ne_nil nonempty
  have here : (head :: tail).isPrefixOf (head :: (tail ++ rest)) = true :=
    List.isPrefixOf_iff_prefix.mpr (List.prefix_append (head :: tail) rest)
  rw [List.cons_append, replace, replaceFrom, if_pos here, replaceFrom_skip,
    List.length_cons, Nat.add_sub_cancel, List.drop_left]

theorem replace_cons {head : Char} {rest : Text} (elsewhere : ¬ old <+: head :: rest) :
    replace old new (head :: rest) = head :: replace old new rest := by
  have here : ¬ old.isPrefixOf (head :: rest) = true :=
    fun found => elsewhere (List.isPrefixOf_iff_prefix.mp found)
  rw [replace, replaceFrom, if_neg here, replace]

/-- **Induction along a replacement.** A text is empty, or it starts with the
word, or with a character that is kept. -/
theorem replace_induction {motive : Text → Prop} (nonempty : old ≠ []) (empty : motive [])
    (word : ∀ rest, motive rest → motive (old ++ rest))
    (kept : ∀ head rest, ¬ old <+: head :: rest → motive rest → motive (head :: rest))
    (text : Text) : motive text := by
  induction size : text.length using Nat.strong_induction_on generalizing text with
  | _ size ih =>
      match text with
      | [] => exact empty
      | head :: rest =>
          by_cases found : old <+: head :: rest
          · obtain ⟨after, same⟩ := found
            have longer : 0 < old.length := List.length_pos_iff.mpr nonempty
            have lengths := congrArg List.length same
            rw [List.length_append, size] at lengths
            rw [← same]
            exact word after (ih after.length (by omega) after rfl)
          · refine kept head rest found (ih rest.length ?_ rest rfl)
            rw [← size, List.length_cons]
            exact Nat.lt_succ_self _

/-- A character that can only start the word separates the text. -/
theorem replace_append_cons (nonempty : old ≠ []) {separator : Char}
    (inside : separator ∉ old.tail) (left right : Text) :
    replace old new (left ++ separator :: right) =
      replace old new left ++ replace old new (separator :: right) := by
  induction left using replace_induction nonempty with
  | empty => rfl
  | word rest ih =>
      rw [List.append_assoc, replace_word nonempty, replace_word nonempty, ih, List.append_assoc]
  | kept head rest elsewhere ih =>
      have still : ¬ old <+: head :: (rest ++ separator :: right) := by
        intro found
        have front : head :: (rest ++ [separator]) <+: head :: (rest ++ separator :: right) :=
          ⟨right, by rw [List.cons_append, List.append_assoc]; rfl⟩
        rcases List.prefix_or_prefix_of_prefix found front with short | ⟨after, same⟩
        · rw [← List.cons_append, List.prefix_concat_iff] at short
          rcases short with rfl | short
          · exact inside (List.mem_append_right rest (List.mem_singleton.mpr rfl))
          · exact elsewhere short
        · rw [← same] at inside
          exact inside (List.mem_append_left after
            (List.mem_append_right rest (List.mem_singleton.mpr rfl)))
      rw [List.cons_append, replace_cons still, ih, replace_cons elsewhere, List.cons_append]

theorem mem_replace (nonempty : old ≠ []) {char : Char} {text : Text}
    (member : char ∈ replace old new text) : char ∈ new ∨ char ∈ text := by
  induction text using replace_induction nonempty with
  | empty => exact .inr member
  | word rest ih =>
      rw [replace_word nonempty, List.mem_append] at member
      rcases member with here | later
      · exact .inl here
      · exact (ih later).imp_right fun there => List.mem_append_right old there
  | kept head rest elsewhere ih =>
      rw [replace_cons elsewhere, List.mem_cons] at member
      rcases member with rfl | later
      · exact .inr List.mem_cons_self
      · exact (ih later).imp_right fun there => List.mem_cons_of_mem head there

/-- A word at the end is always replaced, when its first character is nowhere else in it. -/
theorem replace_append_word {head : Char} {tail : Text} (inside : head ∉ tail) (left : Text) :
    replace (head :: tail) new (left ++ head :: tail) = replace (head :: tail) new left ++ new := by
  have nonempty : head :: tail ≠ [] := List.cons_ne_nil head tail
  have last : replace (head :: tail) new ((head :: tail) ++ []) = new ++ replace _ _ [] :=
    replace_word nonempty []
  rw [List.append_nil, replace_nil, List.append_nil] at last
  rw [replace_append_cons nonempty inside, last]

/-- A separator that the word does not have splits the replacement. -/
theorem replace_append_separator (nonempty : old ≠ []) {separator : Char}
    (inside : separator ∉ old) (left right : Text) :
    replace old new (left ++ separator :: right) =
      replace old new left ++ separator :: replace old new right := by
  have elsewhere : ¬ old <+: separator :: right := by
    obtain ⟨head, tail, rfl⟩ := List.exists_cons_of_ne_nil nonempty
    exact fun found => inside ((List.cons_prefix_cons.mp found).1 ▸ List.mem_cons_self)
  rw [replace_append_cons nonempty fun member => inside (List.mem_of_mem_tail member),
    replace_cons elsewhere]

/-- A replacement by another word of the same length changes exactly the texts
that have the word in them. -/
theorem replace_eq_self_iff (nonempty : old ≠ []) (other : new ≠ old)
    (length : new.length = old.length) (text : Text) :
    replace old new text = text ↔ ¬ old <:+: text := by
  induction text using replace_induction nonempty with
  | empty => exact iff_of_true rfl fun found => nonempty (List.infix_nil.mp found)
  | word rest ih =>
      refine iff_of_false ?_ (not_not.mpr (List.prefix_append old rest).isInfix)
      rw [replace_word nonempty]
      exact fun same => other (List.append_inj_left same length)
  | kept head rest elsewhere ih =>
      rw [replace_cons elsewhere, List.cons.injEq, eq_self, true_and, ih, List.infix_cons_iff,
        not_or]
      exact (and_iff_right elsewhere).symm

end Replace

/-- A character for another one, at every place. -/
theorem replace_singleton (old new : Char) (text : Text) :
    replace [old] [new] text = text.map fun char => if char = old then new else char := by
  induction text with
  | nil => rfl
  | cons head rest ih =>
      by_cases same : head = old
      · subst same
        rw [List.map_cons, if_pos rfl, ← ih]
        exact replace_word (List.cons_ne_nil head []) rest
      · have elsewhere : ¬ [old] <+: head :: rest :=
          fun found => same (List.cons_prefix_cons.mp found).1.symm
        rw [replace_cons elsewhere, ih, List.map_cons, if_neg same]

/-! ### Paths -/

def slash : Char := '/'

/-- A directory with the separator that `join` puts behind it. -/
def withSlash (directory : Text) : Text :=
  if directory = [] ∨ directory.getLast? = some slash then directory else directory ++ [slash]

/-- `os.path.join(directory, name)`. -/
def join (directory name : Text) : Text :=
  if name.head? = some slash then name else withSlash directory ++ name

/-- The text of a path up to its last separator. -/
def directoryOf (path : Text) : Text := path.rdropWhile (· ≠ slash)

/-- `os.path.basename`. -/
def nameOf (path : Text) : Text := path.rtakeWhile (· ≠ slash)

theorem join_of_relative {directory name : Text} (relative : slash ∉ name) :
    join directory name = withSlash directory ++ name := by
  refine if_neg fun absolute => relative ?_
  exact List.mem_of_mem_head? absolute

/-- A directory with its separator is empty or ends with it. -/
theorem withSlash_cases (directory : Text) :
    (directory = [] ∧ withSlash directory = []) ∨
      ∃ front, withSlash directory = front ++ [slash] ∧
        (directory = front ∨ directory = front ++ [slash]) := by
  unfold withSlash
  by_cases empty : directory = []
  · exact .inl ⟨empty, (if_pos (.inl empty)).trans empty⟩
  · right
    by_cases ended : directory.getLast? = some slash
    · obtain ⟨front, rfl⟩ := List.getLast?_eq_some_iff.mp ended
      exact ⟨front, if_pos (.inr ended), .inr rfl⟩
    · exact ⟨directory, if_neg (not_or.mpr ⟨empty, ended⟩), .inl rfl⟩

theorem nameOf_append (directory : Text) {name : Text} (relative : slash ∉ name) :
    nameOf (withSlash directory ++ name) = name := by
  have all : ∀ char ∈ name.reverse, decide (char ≠ slash) = true := by
    intro char member
    exact decide_eq_true fun same => relative (same ▸ List.mem_reverse.mp member)
  have stop : (withSlash directory).reverse.takeWhile (fun char => decide (char ≠ slash)) = [] := by
    rcases withSlash_cases directory with ⟨-, ended⟩ | ⟨front, ended, -⟩
    · rw [ended]; rfl
    · rw [ended, List.reverse_append, List.reverse_singleton, List.singleton_append]
      exact List.takeWhile_cons_of_neg (by decide)
  rw [nameOf, List.rtakeWhile, List.reverse_append, List.takeWhile_append_of_pos all, stop,
    List.append_nil, List.reverse_reverse]

theorem directoryOf_append (directory : Text) {name : Text} (relative : slash ∉ name) :
    directoryOf (withSlash directory ++ name) = withSlash directory := by
  have parts : directoryOf (withSlash directory ++ name) ++ nameOf (withSlash directory ++ name) =
      withSlash directory ++ name := List.rdropWhile_append_rtakeWhile
  rw [nameOf_append directory relative] at parts
  exact List.append_cancel_right parts

/-- The directory and the name of a path determine each other. -/
theorem append_inj_of_relative {left right name other : Text} (relative : slash ∉ name)
    (relative' : slash ∉ other) :
    withSlash left ++ name = withSlash right ++ other ↔
      withSlash left = withSlash right ∧ name = other := by
  constructor
  · intro same
    constructor
    · rw [← directoryOf_append left relative, same, directoryOf_append right relative']
    · rw [← nameOf_append left relative, same, nameOf_append right relative']
  · rintro ⟨directories, rfl⟩
    rw [directories]

/-- A word without a separator is in a path when it is in the directory or in
the name. -/
theorem infix_withSlash {word directory name : Text} (nonempty : word ≠ [])
    (inside : slash ∉ word) :
    word <:+: withSlash directory ++ name ↔ word <:+: directory ∨ word <:+: name := by
  have nowhere : ¬ word <:+: [] := fun found => nonempty (List.infix_nil.mp found)
  rcases withSlash_cases directory with ⟨rfl, ended⟩ | ⟨front, ended, rfl | rfl⟩
  · rw [ended, List.nil_append, or_iff_right nowhere]
  · rw [ended, List.append_assoc, List.singleton_append, infix_append_cons inside]
  · rw [ended, List.append_assoc, List.singleton_append, infix_append_cons inside,
      infix_append_cons inside, or_iff_left nowhere]

theorem replace_withSlash {old new : Text} (nonempty : old ≠ []) (inside : slash ∉ old)
    (directory name : Text) :
    replace old new (withSlash directory ++ name) =
      replace old new (withSlash directory) ++ replace old new name := by
  rcases withSlash_cases directory with ⟨-, ended⟩ | ⟨front, ended, -⟩
  · rw [ended]
    rfl
  · rw [ended, List.append_assoc, List.singleton_append,
      replace_append_separator nonempty inside, replace_append_separator nonempty inside,
      replace_nil, List.append_assoc, List.singleton_append]

theorem withSlash_append_slash (front : Text) : withSlash (front ++ [slash]) = front ++ [slash] :=
  if_pos (.inr List.getLast?_concat)

/-- A replacement in a directory leaves a directory. -/
theorem exists_replace_withSlash {old : Text} (nonempty : old ≠ []) (inside : slash ∉ old)
    (new directory : Text) :
    ∃ other, replace old new (withSlash directory) = withSlash other := by
  rcases withSlash_cases directory with ⟨-, ended⟩ | ⟨front, ended, -⟩
  · exact ⟨[], by rw [ended]; rfl⟩
  · refine ⟨replace old new front ++ [slash], ?_⟩
    rw [ended, replace_append_separator nonempty inside, replace_nil, withSlash_append_slash]

/-- The ending of a path is that of its name. -/
theorem suffix_nameOf {path ending : Text} (inside : slash ∉ ending) (ends : ending <:+ path) :
    ending <:+ nameOf path := by
  obtain ⟨front, rfl⟩ := ends
  have all : ∀ char ∈ ending.reverse, decide (char ≠ slash) = true := by
    intro char member
    exact decide_eq_true fun same => inside (same ▸ List.mem_reverse.mp member)
  rw [nameOf, List.rtakeWhile, List.reverse_append, List.takeWhile_append_of_pos all,
    List.reverse_append, List.reverse_reverse]
  exact List.suffix_append _ _

/-- `text.removesuffix(ending)`. -/
def removeSuffix (ending text : Text) : Text :=
  if ending.isSuffixOf text then text.take (text.length - ending.length) else text

@[simp] theorem removeSuffix_append (text ending : Text) :
    removeSuffix ending (text ++ ending) = text := by
  have found : ending.isSuffixOf (text ++ ending) = true :=
    List.isSuffixOf_iff_suffix.mpr (List.suffix_append text ending)
  rw [removeSuffix, if_pos found, List.length_append, Nat.add_sub_cancel, List.take_left]

end Text
