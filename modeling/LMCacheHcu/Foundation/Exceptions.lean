import LMCacheHcu.Foundation.Checked

/-! # Declared and builtin exceptions

A function declares the exceptions that its callers handle. The operations that
it uses may raise others of the language, which pass every handler that names
only the declared ones. A computation is contained when it cannot raise such a
builtin exception.
-/

namespace Exceptions

/-- Exceptions of the language. -/
inductive Builtin
  | assertionError
  | attributeError
  | indexError
  | jsonDecodeError
  | keyError
  | memoryError
  | overflowError
  | recursionError
  | runtimeError
  | structError
  | typeError
  | unicodeDecodeError
  | unicodeEncodeError
  | valueError
  | zeroDivisionError
deriving DecidableEq, Repr

inductive Raised (Declared : Type)
  | declared (error : Declared)
  | builtin (error : Builtin)
deriving DecidableEq, Repr

variable {Declared α β : Type}

/-- A function that raises nothing but the declared exception. -/
def declare (result : Except Declared α) : Except (Raised Declared) α :=
  result.mapError .declared

/-- An operation of the language. -/
def builtin (result : Except Builtin α) : Except (Raised Declared) α :=
  result.mapError .builtin

/-- `except kinds as e: raise error(e) from e`. -/
def translate (kinds : Builtin → Bool) (error : Builtin → Declared)
    (result : Except (Raised Declared) α) : Except (Raised Declared) α :=
  match result with
  | .error (.builtin kind) => if kinds kind then .error (.declared (error kind)) else result
  | _ => result

/-- **Contained.** The computation returns or raises the declared exception. -/
def Contained (result : Except (Raised Declared) α) : Prop :=
  ∀ error, result ≠ .error (.builtin error)

theorem contained_ok (value : α) : Contained (.ok value : Except (Raised Declared) α) :=
  fun _ raised => nomatch raised

theorem contained_pure (value : α) : Contained (pure value : Except (Raised Declared) α) :=
  contained_ok value

theorem contained_declared (error : Declared) :
    Contained (.error (.declared error) : Except (Raised Declared) α) :=
  fun _ raised => nomatch raised

theorem not_contained (error : Builtin) :
    ¬ Contained (.error (.builtin error) : Except (Raised Declared) α) :=
  fun contained => contained error rfl

theorem contained_declare (result : Except Declared α) : Contained (declare result) := by
  cases result with
  | error failure => exact contained_declared failure
  | ok value => exact contained_ok value

theorem contained_builtin {result : Except Builtin α} :
    Contained (builtin result : Except (Raised Declared) α) ↔ ∃ value, result = .ok value := by
  cases result with
  | error failure =>
      exact iff_of_false (not_contained failure) fun ⟨_, returned⟩ => nomatch returned
  | ok value => exact iff_of_true (contained_ok value) ⟨value, rfl⟩

/-- A sequence is contained when its first part is, and its rest after every
value that the first part may return. -/
theorem contained_bind {first : Except (Raised Declared) α}
    {next : α → Except (Raised Declared) β} :
    Contained (first >>= next) ↔
      Contained first ∧ ∀ value, first = .ok value → Contained (next value) := by
  cases first with
  | error failure =>
      constructor
      · refine fun contained => ⟨fun error raised => contained error ?_,
          fun _ returned => nomatch returned⟩
        cases raised
        rfl
      · rintro ⟨contained, _⟩ error raised
        cases raised
        exact contained error rfl
  | ok value =>
      constructor
      · refine fun contained => ⟨contained_ok value, fun other returned => ?_⟩
        cases returned
        exact contained
      · exact fun contained => contained.2 value rfl

/-- An operation of the language has to succeed. -/
theorem contained_builtin_bind {result : Except Builtin α}
    {next : α → Except (Raised Declared) β} :
    Contained (builtin result >>= next) ↔ ∃ value, result = .ok value ∧ Contained (next value) := by
  cases result with
  | error kind => exact iff_of_false (not_contained kind) fun ⟨_, found, _⟩ => nomatch found
  | ok value =>
      constructor
      · exact fun contained => ⟨value, rfl, contained⟩
      · rintro ⟨_, found, contained⟩
        cases found
        exact contained

/-- A check that raises the declared exception is contained when what follows it is. -/
theorem contained_check {condition : Prop} [Decidable condition] {error : Declared}
    {rest : Except (Raised Declared) α} :
    Contained (if condition then .error (.declared error) else rest) ↔
      (¬ condition → Contained rest) := by
  by_cases failed : condition
  · rw [if_pos failed]
    exact iff_of_true (contained_declared error) fun passed => absurd failed passed
  · rw [if_neg failed]
    exact ⟨fun contained _ => contained, fun contained => contained failed⟩

theorem contained_translate {kinds : Builtin → Bool} {error : Builtin → Declared}
    {result : Except (Raised Declared) α} :
    Contained (translate kinds error result) ↔
      ∀ kind, result = .error (.builtin kind) → kinds kind = true := by
  match result with
  | .ok value =>
      exact iff_of_true (contained_ok value) fun kind raised => nomatch raised
  | .error (.declared failure) =>
      exact iff_of_true (contained_declared failure) fun kind raised => nomatch raised
  | .error (.builtin kind) =>
      by_cases caught : kinds kind = true
      · rw [translate, if_pos caught]
        refine iff_of_true (contained_declared _) fun other raised => ?_
        cases raised
        exact caught
      · rw [translate, if_neg caught]
        exact iff_of_false (not_contained kind) fun all => caught (all kind rfl)

theorem builtin_ok {result : Except Builtin α} {value : α} :
    (builtin result : Except (Raised Declared) α) = .ok value ↔ result = .ok value :=
  Checked.mapError_ok

theorem builtin_error {result : Except Builtin α} {kind : Builtin} :
    (builtin result : Except (Raised Declared) α) = .error (.builtin kind) ↔
      result = .error kind := by
  cases result with
  | error other =>
      rw [builtin, Except.mapError, Except.error.injEq, Except.error.injEq, Raised.builtin.injEq]
  | ok value => exact iff_of_false (fun raised => nomatch raised) fun raised => nomatch raised

/-- A handler does not change what is returned. -/
theorem translate_ok {kinds : Builtin → Bool} {error : Builtin → Declared}
    {result : Except (Raised Declared) α} {value : α} :
    translate kinds error result = .ok value ↔ result = .ok value := by
  match result with
  | .ok other => exact Iff.rfl
  | .error (.declared failure) => exact Iff.rfl
  | .error (.builtin kind) =>
      by_cases caught : kinds kind = true
      · rw [translate, if_pos caught]
        exact iff_of_false (fun returned => nomatch returned) fun returned => nomatch returned
      · rw [translate, if_neg caught]

/-- A handler around an operation of the language catches what it raises. -/
theorem contained_translate_builtin {kinds : Builtin → Bool} {error : Builtin → Declared}
    {result : Except Builtin α} :
    Contained (translate kinds error (builtin result)) ↔
      ∀ kind, result = .error kind → kinds kind = true := by
  simp only [contained_translate, builtin_error]

/-- What is not raised is returned, and the other way around. -/
theorem Contained.cases {result : Except (Raised Declared) α} (contained : Contained result) :
    (∃ value, result = .ok value) ∨ ∃ error, result = .error (.declared error) := by
  match result with
  | .ok value => exact .inl ⟨value, rfl⟩
  | .error (.declared error) => exact .inr ⟨error, rfl⟩
  | .error (.builtin error) => exact absurd contained (not_contained error)

end Exceptions
