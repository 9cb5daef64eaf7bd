/-
SingleFlight.Proofs.Rendering — templates and the addresses they make.

A template can be written from parts: texts in which every brace is doubled, and
the plain fields of a chunk's id and hash. The pieces into which such a template
is split are those of its parts, one after the other: a part ends where it ends,
whatever follows, since a brace of a text never stands alone and a field ends at
its first closing brace. So what the template shows is what its parts show.

* `Template.Part` — the parts, as written and as shown.
* `Template.pieces_written` — the pieces of a part, and then those of the rest.
* `Template.Value.write_nil_text`, `write_nil_number` — values in plain fields.
* `AddressTemplate.resolve_written` — the address of a chunk by a template that
  is written from parts.
-/
import SingleFlight.Address

namespace SingleFlight

namespace Template

/-! ## §1 Parts of a template -/

/-- What a template can be written from. -/
inductive Part where
  /-- A text that is shown as it is. -/
  | literal (s : String)
  /-- The chunk's id. -/
  | id
  /-- The chunk's hash. -/
  | hash
deriving DecidableEq, Repr

/-- A character of a text as templates write it. -/
def writtenChar (c : Char) : List Char :=
  if c = '{' ∨ c = '}' then [c, c] else [c]

namespace Part

/-- A part as it is written in a template. -/
def written : Part → String
  | literal s => String.ofList (s.toList.flatMap writtenChar)
  | id => "\x7bid\x7d"
  | hash => "\x7bhash\x7d"

/-- A part as it is shown for an id and a hash. -/
def shown (idText hashText : String) : Part → String
  | literal s => s
  | id => idText
  | hash => hashText

/-- The pieces that a part is. -/
def pieces : Part → List Piece
  | literal s => s.toList.map .char
  | id => [.field ⟨"id".toList, none, []⟩]
  | hash => [.field ⟨"hash".toList, none, []⟩]

end Part

/-! ## §2 Pieces -/

/--
A character of a text is a piece by itself, whatever follows. Of three braces in a row the first
two are one that is shown, even if the third one begins a field.
-/
theorem pieces_writtenChar (c : Char) (r : List Char) :
    pieces (writtenChar c ++ r) = .char c :: pieces r := by
  by_cases ho : c = '{'
  · subst ho
    simp [writtenChar, pieces]
  by_cases hc : c = '}'
  · subst hc
    simp [writtenChar, pieces]
  · -- Neither a brace nor half of one: the scanner's last case.
    simp only [writtenChar, ho, hc, or_self, if_false, List.singleton_append]
    rw [pieces]
    all_goals simp [ho, hc]

theorem pieces_literal (cs r : List Char) :
    pieces (cs.flatMap writtenChar ++ r) = cs.map .char ++ pieces r := by
  induction cs with
  | nil => rfl
  | cons c cs ih =>
    rw [List.flatMap_cons, List.append_assoc, pieces_writtenChar, ih]
    rfl

/-- A part is split off the front of a template, whatever comes after it. -/
theorem pieces_written (p : Part) (r : List Char) :
    pieces (p.written.toList ++ r) = p.pieces ++ pieces r := by
  cases p with
  | literal s =>
    rw [Part.written, String.toList_ofList, pieces_literal]
    rfl
  | id => simp [Part.written, Part.pieces, pieces, takeField, takeName, Except.map]
  | hash => simp [Part.written, Part.pieces, pieces, takeField, takeName, Except.map]

theorem pieces_template (parts : List Part) :
    pieces (String.join (parts.map Part.written)).toList = parts.flatMap Part.pieces := by
  rw [String.toList_join]
  induction parts with
  | nil => simp [pieces]
  | cons p ps ih =>
    rw [List.map_cons, List.flatMap_cons, pieces_written, ih]
    rfl

/-! ## §3 Values in plain fields -/

/-- How a kind of value is written when a field says nothing about it. -/
def FormatSpec.plain (kind : Kind) : FormatSpec where
  fill := ' '
  align := defaultAlign kind
  sign := none
  coerceZero := false
  alternate := false
  width := none
  grouping := none
  precision := none
  code := defaultCode kind

theorem FormatSpec.read_nil (kind : Kind) : FormatSpec.read kind [] = .ok (.plain kind) := by
  simp [FormatSpec.read, FormatSpec.plain, takeAlign, takeOne, takeNumber, takeGrouping,
    takePrecision, readCode, bind, Except.bind, pure, Except.pure]

theorem FormatSpec.applyText_plain (cs : List Char) :
    (FormatSpec.plain .text).applyText cs = .ok cs := by
  simp [FormatSpec.applyText, FormatSpec.plain, defaultCode, defaultAlign, isTooWide, pad]

/-- The digits of a number after its sign. -/
theorem toList_toString (n : Int) :
    (toString n).toList = (if n < 0 then ['-'] else []) ++ Nat.toDigits 10 n.natAbs := by
  cases n with
  | ofNat m =>
    have hneg : ¬Int.ofNat m < 0 := by simp
    rw [if_neg hneg]
    exact Nat.toList_repr
  | negSucc m =>
    rw [if_pos (Int.negSucc_lt_zero m)]
    show ("-" ++ (m + 1).repr).toList = _
    rw [String.toList_append, Nat.toList_repr]
    rfl

theorem FormatSpec.applyNumber_plain (n : Int) :
    (FormatSpec.plain .number).applyNumber n = .ok (toString n).toList := by
  rw [toList_toString]
  simp [FormatSpec.applyNumber, FormatSpec.plain, defaultCode, defaultAlign, isTooWide, pad, base?,
    writesDouble, applyWhole, lay, group, writeSign]

theorem Value.write_nil_text (cs : List Char) : (Value.text cs).write [] = .ok cs := by
  simp only [Value.write, FormatSpec.read_nil]
  exact FormatSpec.applyText_plain cs

theorem Value.write_nil_number (n : Int) : (Value.number n).write [] = .ok (toString n).toList := by
  simp only [Value.write, FormatSpec.read_nil]
  exact FormatSpec.applyNumber_plain n

/-! ## §4 Templates filled in -/

/-- What pieces come to, one after the other. -/
def filled (fill : Piece → Except TemplateError (List Char)) (ps : List Piece) :
    Except TemplateError (List Char) :=
  (ps.mapM fill).map List.flatten

variable {fill : Piece → Except TemplateError (List Char)}

theorem filled_append {ps qs : List Piece} {cs ds : List Char} (hp : filled fill ps = .ok cs)
    (hq : filled fill qs = .ok ds) : filled fill (ps ++ qs) = .ok (cs ++ ds) := by
  unfold filled at *
  rw [List.mapM_append]
  cases hps : ps.mapM fill with
  | error e => simp [hps, Except.map] at hp
  | ok css =>
    cases hqs : qs.mapM fill with
    | error e => simp [hqs, Except.map] at hq
    | ok dss =>
      simp only [hps, hqs, Except.map, Except.ok.injEq] at hp hq
      simp [bind, Except.bind, pure, Except.pure, Except.map, hp, hq]

theorem filled_singleton {p : Piece} {cs : List Char} (h : fill p = .ok cs) :
    filled fill [p] = .ok cs := by
  simp [filled, h, bind, Except.bind, pure, Except.pure, Except.map]

/-- Where every part comes to some text, a template comes to the texts of its parts. -/
theorem filled_parts {text : Part → String} (parts : List Part)
    (h : ∀ p : Part, filled fill p.pieces = .ok (text p).toList) :
    filled fill (parts.flatMap Part.pieces) = .ok (String.join (parts.map text)).toList := by
  induction parts with
  | nil => rfl
  | cons p ps ih =>
    rw [String.toList_join] at ih ⊢
    exact filled_append (h p) ih

theorem filled_chars (cs : List Char) (h : ∀ c, fill (.char c) = .ok [c]) :
    filled fill (cs.map .char) = .ok cs := by
  induction cs with
  | nil => rfl
  | cons c cs ih => exact filled_append (filled_singleton (h c)) ih

/-- A name without selectors that is no number stands for the value that it is bound to. -/
theorem resolve_of_lookup {b : Bindings} {name : List Char} {v : Value}
    (whole : name.takeWhile (!startsSelector ·) = name)
    (nothing : name.dropWhile (!startsSelector ·) = []) (unindexed : readIndex name = .ok none)
    (named : name.isEmpty = false) (hv : b.lookup name = some v) : resolve b name = .ok v := by
  simp [resolve, whole, nothing, unindexed, named, hv, select, bind, Except.bind]

/-- A plain field that names a value shows the value. -/
theorem renderPiece_plain {b : Bindings} {expand : List Char → Except TemplateError (List Char)}
    {name cs : List Char} {v : Value} (hv : resolve b name = .ok v) (hw : v.write [] = .ok cs) :
    renderPiece b expand (.field ⟨name, none, []⟩) = .ok cs := by
  simp [renderPiece, hv, hw, Value.convert, bind, Except.bind, pure, Except.pure]

theorem renderNested_succ (b : Bindings) (depth : Nat) (cs : List Char) :
    renderNested b (depth + 1) cs = filled (renderPiece b (renderNested b depth)) (pieces cs) :=
  rfl

end Template

/-! ## §5 Addresses -/

namespace AddressTemplate

open Template

/-- The hash that pairs give a chunk: that of its last pair, or the empty one if it has none. -/
def Hashed (hashes : List (ChunkId × String)) (chunk : ChunkId) (hash : String) : Prop :=
  (∃ before after, hashes = before ++ (chunk, hash) :: after ∧ ∀ p ∈ after, p.1 ≠ chunk) ∨
    hash = "" ∧ ∀ p ∈ hashes, p.1 ≠ chunk

theorem hashed_lastFor (hashes : List (ChunkId × String)) (chunk : ChunkId) :
    Hashed hashes chunk ((lastFor chunk hashes).getD "") := by
  cases h : lastFor chunk hashes with
  | none =>
    refine .inr ⟨rfl, fun p hp he => ?_⟩
    have none_left := List.lookup_eq_none_iff.mp h p (List.mem_reverse.mpr hp)
    simp [he] at none_left
  | some hash =>
    obtain ⟨later, earlier, hsplit, hlater⟩ := List.lookup_eq_some_iff.mp h
    refine .inl ⟨earlier.reverse, later.reverse, ?_, fun p hp he => ?_⟩
    · rw [← hashes.reverse_reverse, hsplit]
      simp
    · have other := hlater p (List.mem_reverse.mp hp)
      simp [he] at other

variable (a : AddressTemplate) (chunk : ChunkId)

theorem resolve_id : Template.resolve (a.bindings chunk) "id".toList = .ok (idValue chunk) :=
  resolve_of_lookup rfl rfl rfl rfl rfl

theorem resolve_hash : Template.resolve (a.bindings chunk) "hash".toList =
    .ok (.text ((lastFor chunk a.hashes).getD "").toList) :=
  resolve_of_lookup rfl rfl rfl rfl rfl

/-- An id in a plain field reads as it does everywhere else; a number is written in decimal. -/
theorem write_nil_idValue : (idValue chunk).write [] = .ok chunk.text.toList := by
  cases chunk with
  | name s => exact Value.write_nil_text s.toList
  | number n => exact Value.write_nil_number n

theorem filled_part (expand : List Char → Except TemplateError (List Char)) (p : Part) :
    filled (renderPiece (a.bindings chunk) expand) p.pieces =
      .ok (p.shown chunk.text ((lastFor chunk a.hashes).getD "")).toList := by
  cases p with
  | literal s => exact filled_chars s.toList fun _ => rfl
  | id => exact filled_singleton (renderPiece_plain (a.resolve_id chunk) (write_nil_idValue chunk))
  | hash =>
    exact filled_singleton (renderPiece_plain (a.resolve_hash chunk) (Value.write_nil_text _))

/-- The address of a chunk by a template that is written from parts. -/
theorem resolve_template (parts : List Part)
    (hf : a.filename = String.join (parts.map Part.written)) :
    a.resolve chunk = .ok (a.publicPath ++
      String.join (parts.map (Part.shown chunk.text ((lastFor chunk a.hashes).getD "")))) := by
  have rendered : render (a.bindings chunk) a.filename.toList =
      .ok (String.join (parts.map (Part.shown chunk.text
        ((lastFor chunk a.hashes).getD "")))).toList := by
    rw [hf, render, renderNested_succ, pieces_template]
    exact filled_parts parts (a.filled_part chunk _)
  rw [resolve, rendered]
  simp only [String.ofList_toList]

/--
A template that is written from parts has an address for every chunk: the path, and then what the
parts show of the chunk.
-/
theorem resolve_written (publicPath : String) (hashes : List (ChunkId × String))
    (parts : List Part) (chunk : ChunkId) :
    ∃ hash, Hashed hashes chunk hash ∧
      AddressTemplate.resolve
          { publicPath, filename := String.join (parts.map Part.written), hashes } chunk =
        .ok (publicPath ++ String.join (parts.map (Part.shown chunk.text hash))) :=
  ⟨_, hashed_lastFor hashes chunk, resolve_template _ chunk parts rfl⟩

end AddressTemplate

end SingleFlight
