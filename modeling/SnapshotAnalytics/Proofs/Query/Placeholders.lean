import Mathlib.Data.List.Basic
import SnapshotAnalytics.Proofs.Text.Wording
import SnapshotAnalytics.Query.Statement

/-!
# Placeholders in the text of a statement

A fragment is sound when its fixed text is worded in plain characters and its parameters have names.
Then braces stand only around placeholders, and the placeholders can be read off the text: they are
those of the parameters, from left to right. So the text of a sound fragment determines the names and
the types of its parameters; only the values are free.
-/

namespace SnapshotAnalytics

/-! ## §1 Sound fragments -/

/-- Fixed text in plain characters, or a parameter that has a name. -/
def Piece.IsSound : Piece → Prop
  | .text s => Text.IsWording s
  | .parameter p => Parameter.isName p.name = true

namespace Fragment

/-- All pieces are sound. -/
def IsSound (f : Fragment) : Prop :=
  ∀ piece ∈ f, piece.IsSound

end Fragment

/-! ## §2 Placeholders in a text -/

/-- The placeholders of a text: at every opening brace, all up to the next closing one and with it. -/
def Text.placeholders : List Char → List (List Char)
  | [] => []
  | c :: s =>
    if c = '\x7b' then
      (c :: s.take (s.idxOf '\x7d' + 1)) :: placeholders s
    else
      placeholders s

theorem Text.placeholders_append {s : List Char} (hs : '\x7b' ∉ s) (t : List Char) :
    placeholders (s ++ t) = placeholders t := by
  induction s with
  | nil => rfl
  | cons c s ih =>
    rw [List.mem_cons, not_or] at hs
    rw [List.cons_append, placeholders, if_neg (Ne.symm hs.1), ih hs.2]

theorem ParameterType.name_injective : Function.Injective ParameterType.name := by
  intro type type' h
  cases type <;> cases type'
  case string.string | float.float | date.date => rfl
  all_goals exact absurd h (by decide)

namespace Parameter

/-- What a placeholder has between its braces: the name and the type. -/
def label (p : Parameter) : List Char :=
  p.name.toList ++ ':' :: p.type.name.toList

theorem placeholder_eq (p : Parameter) : p.placeholder = '\x7b' :: (p.label ++ ['\x7d']) := by
  simp [placeholder, label]

theorem isNameChar_of_mem {p : Parameter} (hp : isName p.name = true) {c : Char}
    (hc : c ∈ p.name.toList) : isNameChar c = true := by
  rw [isName, Bool.and_eq_true, List.all_eq_true] at hp
  exact hp.2 c hc

theorem isNameChar_of_mem_typeName {type : ParameterType} {c : Char}
    (hc : c ∈ type.name.toList) : isNameChar c = true := by
  have hname : type.name.toList.all isNameChar = true := by cases type <;> decide
  exact List.all_eq_true.mp hname c hc

/-- The characters of a label are those of names, and the colon. -/
theorem mem_label {p : Parameter} (hp : isName p.name = true) {c : Char} (hc : c ∈ p.label) :
    isNameChar c = true ∨ c = ':' := by
  rcases List.mem_append.mp hc with hname | hrest
  · exact Or.inl (isNameChar_of_mem hp hname)
  · rcases List.mem_cons.mp hrest with hcolon | htype
    · exact Or.inr hcolon
    · exact Or.inl (isNameChar_of_mem_typeName htype)

theorem brace_not_mem_label {p : Parameter} (hp : isName p.name = true) :
    '\x7b' ∉ p.label ∧ '\x7d' ∉ p.label := by
  constructor <;> intro hc <;> rcases mem_label hp hc with hname | hcolon
  · exact absurd hname (by decide)
  · exact absurd hcolon (by decide)
  · exact absurd hname (by decide)
  · exact absurd hcolon (by decide)

theorem placeholders_placeholder {p : Parameter} (hp : isName p.name = true) (t : List Char) :
    Text.placeholders (p.placeholder ++ t) = p.placeholder :: Text.placeholders t := by
  obtain ⟨hopen, hclose⟩ := brace_not_mem_label hp
  -- The label ends at the closing brace, and no brace is left in it for the characters behind.
  have hlabel : (p.label ++ '\x7d' :: t).take ((p.label ++ '\x7d' :: t).idxOf '\x7d' + 1) =
      p.label ++ ['\x7d'] := by
    rw [List.idxOf_append_of_notMem hclose, List.idxOf_cons_self, Nat.add_zero, List.take_append,
      List.take_of_length_le (Nat.le_succ _), Nat.add_sub_cancel_left]
    rfl
  have hrest : Text.placeholders (p.label ++ '\x7d' :: t) = Text.placeholders t := by
    rw [Text.placeholders_append hopen, Text.placeholders, if_neg (by decide)]
  rw [placeholder_eq, List.cons_append, List.append_assoc, List.singleton_append, Text.placeholders,
    if_pos rfl, hlabel, hrest]

/-- The name and the type of a parameter. -/
def header (p : Parameter) : String × ParameterType :=
  (p.name, p.type)

/-- A placeholder determines the name and the type. -/
theorem header_eq_of_placeholder_eq {p q : Parameter} (hq : isName q.name = true)
    (h : p.placeholder = q.placeholder) : p.header = q.header := by
  have hname : ':' ∉ q.name.toList := fun hc => absurd (isNameChar_of_mem hq hc) (by decide)
  have htype : ':' ∉ q.type.name.toList := fun hc => absurd (isNameChar_of_mem_typeName hc) (by decide)
  rw [placeholder_eq, placeholder_eq, List.cons_inj_right, List.append_left_inj] at h
  -- The colon after the name is the only one, so the two labels are cut at the same place.
  obtain ⟨hnames, _, htypes⟩ := (List.append_cons_inj_of_notMem hname htype).mp h.symm
  rw [header, header, String.toList_inj.mp hnames,
    ParameterType.name_injective (String.toList_inj.mp htypes)]

theorem headers_eq_of_placeholders_eq {ps qs : List Parameter}
    (hqs : ∀ q ∈ qs, isName q.name = true) (h : ps.map placeholder = qs.map placeholder) :
    ps.map header = qs.map header := by
  induction ps generalizing qs with
  | nil => rw [List.map_eq_nil_iff.mp h.symm]
  | cons p ps ih =>
    cases qs with
    | nil => cases h
    | cons q qs =>
      rw [List.map_cons, List.map_cons, List.cons.injEq] at h
      obtain ⟨hq, hqs⟩ := List.forall_mem_cons.mp hqs
      rw [List.map_cons, List.map_cons, header_eq_of_placeholder_eq hq h.1, ih hqs h.2]

end Parameter

/-! ## §3 Sound fragments and their texts -/

namespace Fragment

variable {f g : Fragment}

/-- **The placeholders in the text of a sound fragment** are those of its parameters, in order. -/
theorem IsSound.placeholders_chars (hf : f.IsSound) :
    Text.placeholders f.chars = f.parameters.map Parameter.placeholder := by
  -- Fixed text brings in no brace, a parameter brings in its own pair.
  induction f with
  | nil => rfl
  | cons piece f ih =>
    obtain ⟨hpiece, hf⟩ := List.forall_mem_cons.mp hf
    have hrest := ih hf
    cases piece with
    | text s =>
      have hbrace : '\x7b' ∉ s.toList := fun hc => absurd (hpiece _ hc) (by decide)
      exact (Text.placeholders_append hbrace _).trans hrest
    | parameter p =>
      rw [chars, List.flatMap_cons, pieceChars, Parameter.placeholders_placeholder hpiece]
      exact congrArg _ hrest

/-- The characters of a sound fragment. -/
theorem IsSound.mem_chars (hf : f.IsSound) {c : Char} (hc : c ∈ f.chars) :
    Text.isWordingChar c = true ∨ c ∈ ['\x7b', ':', '\x7d'] := by
  obtain ⟨piece, hpiece, hc⟩ := List.mem_flatMap.mp hc
  have hsound := hf piece hpiece
  cases piece with
  | text s => exact Or.inl (hsound c hc)
  | parameter p =>
    rw [pieceChars, Parameter.placeholder_eq] at hc
    rcases List.mem_cons.mp hc with rfl | hc
    · exact Or.inr (by decide)
    rcases List.mem_append.mp hc with hlabel | hclose
    · rcases Parameter.mem_label hsound hlabel with hname | rfl
      · exact Or.inl (Text.isWordingChar_of_isIdentifierPart hname)
      · exact Or.inr (by decide)
    · rw [List.mem_singleton.mp hclose]
      exact Or.inr (by decide)

theorem IsSound.isName (hf : f.IsSound) : ∀ p ∈ f.parameters, Parameter.isName p.name = true := by
  intro p hp
  obtain ⟨piece, hpiece, hsome⟩ := List.mem_filterMap.mp hp
  cases piece with
  | text s => cases hsome
  | parameter q =>
    cases hsome
    exact hf _ hpiece

/-- Sound fragments with the same text have parameters of the same names and types. -/
theorem IsSound.headers_eq_of_sql_eq (hf : f.IsSound) (hg : g.IsSound) (h : f.sql = g.sql) :
    f.parameters.map Parameter.header = g.parameters.map Parameter.header := by
  have hplaceholders :
      f.parameters.map Parameter.placeholder = g.parameters.map Parameter.placeholder := by
    rw [← hf.placeholders_chars, ← hg.placeholders_chars, String.ofList_injective h]
  exact Parameter.headers_eq_of_placeholders_eq hg.isName hplaceholders

end Fragment

end SnapshotAnalytics
