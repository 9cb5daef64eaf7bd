/-
SingleFlight.Template.Piece — the pieces of a template.

A template is text with fields between braces; a brace that stands for itself
is doubled. A field has a name, and may have a conversion (one character after
an exclamation mark) and a format specification (after a colon), in which braces
balance.

* `Field`, `Piece` — a field as written, and the pieces of a template.
* `pieces` — splits a template from left to right. Where it is malformed, the
  list ends with the error, so that whoever reads the pieces in order meets the
  earlier fields first.
-/
import SingleFlight.Template.Error

namespace SingleFlight.Template

/-- A field as it is written. -/
structure Field where
  name : List Char
  conversion : Option Char
  spec : List Char
deriving DecidableEq, Repr

/-- One piece of a template. -/
inductive Piece where
  | char (c : Char)
  | field (f : Field)
  /-- The place where the template stops making sense. -/
  | broken (e : TemplateError)
deriving DecidableEq, Repr

/-- A field's name, the mark that ends it, and the rest. Marks in brackets are part of the name. -/
def takeName (inBrackets : Bool) : List Char →
    Except TemplateError (List Char × Char × List Char)
  | [] => .error .unclosedField
  | c :: r =>
    if inBrackets then
      (takeName (c != ']') r).map fun (name, stop, rest) => (c :: name, stop, rest)
    else if c = '{' then .error .openInName
    else if c = '}' || c = ':' || c = '!' then .ok ([], c, r)
    else (takeName (c == '[') r).map fun (name, stop, rest) => (c :: name, stop, rest)

/-- A format specification up to the brace that closes its field, `depth` braces being open. -/
def takeSpec (depth : Nat) : List Char → Except TemplateError (List Char × List Char)
  | [] => .error .unclosedSpec
  | c :: r =>
    if c = '}' then
      match depth with
      | 0 => .ok ([], r)
      | d + 1 => (takeSpec d r).map fun (spec, rest) => (c :: spec, rest)
    else
      (takeSpec (if c = '{' then depth + 1 else depth) r).map fun (spec, rest) =>
        (c :: spec, rest)

/-- A field with the specification that stands in front of `r`. -/
def withSpec (name : List Char) (conversion : Option Char) (r : List Char) :
    Except TemplateError (Field × List Char) :=
  (takeSpec 0 r).map fun (spec, rest) => (⟨name, conversion, spec⟩, rest)

/-- What follows an exclamation mark. -/
def takeConversion (name : List Char) : List Char → Except TemplateError (Field × List Char)
  | [] => .error .missingConversion
  | [_] => .error .unclosedSpec
  | c :: stop :: r =>
    if stop = '}' then .ok (⟨name, some c, []⟩, r)
    else if stop = ':' then withSpec name (some c) r
    else .error .junkAfterConversion

/-- The field whose opening brace has been read, and the rest of the template. -/
def takeField (cs : List Char) : Except TemplateError (Field × List Char) :=
  match takeName false cs with
  | .error e => .error e
  | .ok (name, stop, r) =>
    if stop = '}' then .ok (⟨name, none, []⟩, r)
    else if stop = ':' then withSpec name none r
    else takeConversion name r

/-! ## Reading a field uses up input -/

theorem length_of_takeName {b : Bool} {cs name rest : List Char} {stop : Char}
    (h : takeName b cs = .ok (name, stop, rest)) : rest.length < cs.length := by
  induction cs generalizing b name with
  | nil => simp [takeName] at h
  | cons c r ih =>
    simp only [takeName] at h
    have step : ∀ b', (takeName b' r).map (fun (n, s, t) => (c :: n, s, t)) =
        .ok (name, stop, rest) → rest.length < (c :: r).length := by
      intro b' hb
      cases ht : takeName b' r with
      | error e => rw [ht] at hb; simp [Except.map] at hb
      | ok q =>
        obtain ⟨n, s, t⟩ := q
        rw [ht] at hb
        simp [Except.map] at hb
        obtain ⟨_, rfl, rfl⟩ := hb
        have := ih ht
        simp only [List.length_cons]
        omega
    split at h
    · exact step _ h
    · split at h
      · simp at h
      · split at h
        · simp at h
          obtain ⟨_, _, rfl⟩ := h
          simp
        · exact step _ h

theorem length_of_takeSpec {d : Nat} {cs spec rest : List Char}
    (h : takeSpec d cs = .ok (spec, rest)) : rest.length < cs.length := by
  induction cs generalizing d spec with
  | nil => simp [takeSpec] at h
  | cons c r ih =>
    have step : ∀ d', (takeSpec d' r).map (fun (s, t) => (c :: s, t)) = .ok (spec, rest) →
        rest.length < (c :: r).length := by
      intro d' hd
      cases ht : takeSpec d' r with
      | error e => rw [ht] at hd; simp [Except.map] at hd
      | ok q =>
        obtain ⟨s, t⟩ := q
        rw [ht] at hd
        simp [Except.map] at hd
        obtain ⟨_, rfl⟩ := hd
        have := ih ht
        simp only [List.length_cons]
        omega
    simp only [takeSpec] at h
    split at h
    · cases d with
      | zero =>
        simp at h
        obtain ⟨_, rfl⟩ := h
        simp
      | succ d => exact step _ h
    · exact step _ h

theorem length_of_withSpec {name : List Char} {conv : Option Char} {cs rest : List Char}
    {f : Field} (h : withSpec name conv cs = .ok (f, rest)) : rest.length < cs.length := by
  unfold withSpec at h
  cases ht : takeSpec 0 cs with
  | error e => rw [ht] at h; simp [Except.map] at h
  | ok q =>
    obtain ⟨s, t⟩ := q
    rw [ht] at h
    simp [Except.map] at h
    obtain ⟨_, rfl⟩ := h
    exact length_of_takeSpec ht

theorem length_of_takeConversion {name cs rest : List Char} {f : Field}
    (h : takeConversion name cs = .ok (f, rest)) : rest.length < cs.length := by
  match cs, h with
  | [], h => simp [takeConversion] at h
  | [_], h => simp [takeConversion] at h
  | c :: stop :: r, h =>
    simp only [takeConversion] at h
    split at h
    · simp at h
      obtain ⟨_, rfl⟩ := h
      simp only [List.length_cons]
      omega
    · split at h
      · have := length_of_withSpec h
        simp only [List.length_cons]
        omega
      · simp at h

theorem length_of_takeField {cs rest : List Char} {f : Field}
    (h : takeField cs = .ok (f, rest)) : rest.length < cs.length := by
  unfold takeField at h
  split at h
  · simp at h
  · rename_i name stop r hn
    have hr := length_of_takeName hn
    split at h
    · simp at h
      obtain ⟨_, rfl⟩ := h
      exact hr
    · split at h
      · have := length_of_withSpec h
        omega
      · have := length_of_takeConversion h
        omega

/-! ## Splitting a template -/

/-- The pieces of a template, from left to right, up to its first malformed place. -/
def pieces : List Char → List Piece
  | [] => []
  | '{' :: '{' :: r => .char '{' :: pieces r
  | '}' :: '}' :: r => .char '}' :: pieces r
  | '}' :: _ => [.broken .loneClose]
  | ['{'] => [.broken .loneOpen]
  | '{' :: r =>
    match _taken : takeField r with
    | .error e => [.broken e]
    | .ok (f, rest) => .field f :: pieces rest
  | c :: r => .char c :: pieces r
termination_by cs => cs.length
decreasing_by
  · simp only [List.length_cons]; omega
  · simp only [List.length_cons]; omega
  · have := length_of_takeField _taken
    simp only [List.length_cons]; omega
  · simp only [List.length_cons]; omega

end SingleFlight.Template
