import Mathlib.Data.List.Induction
import SnapshotAnalytics.Proofs.Query.Bindings
import SnapshotAnalytics.Proofs.Query.Placeholders
import SnapshotAnalytics.Proofs.Text.Replacing

/-!
# Values in place of placeholders

A text is shown with the values of its parameters by replacing the placeholders of one parameter after
the other. This is the text with all placeholders replaced at once exactly when no literal that is put
in place brings in the placeholder of a parameter bound later. A text value may well do so: then the
later value appears inside of its quotes, and the text depends on the order of the parameters.
-/

namespace SnapshotAnalytics

namespace Parameter

/-! ## §1 All placeholders at once -/

/-- The literals of parameters under their placeholders. -/
def literals (ps : List Parameter) : List (List Char × List Char) :=
  ps.map fun p => (p.placeholder, p.literal)

/-- A text with the literals of parameters in place of its placeholders: those of the text itself, each
replaced by its own literal, and nothing else. -/
def substitute (ps : List Parameter) (s : String) : String :=
  String.ofList (Text.replaceAtOnce (literals ps) s.toList)

theorem isMark_placeholder {p : Parameter} (hp : isName p.name = true) :
    Text.IsMark p.placeholder :=
  ⟨p.label, p.placeholder_eq, brace_not_mem_label hp⟩

section

variable {ps : List Parameter} {p : Parameter}

theorem check_concat (h : check (ps ++ [p]) = .ok ()) :
    check ps = .ok () ∧ isName p.name = true ∧ p.name ∉ ps.map name := by
  rw [check_eq_ok, List.map_append, List.nodup_append] at h
  obtain ⟨hnames, hnodup, -, hnew⟩ := h
  refine ⟨check_eq_ok.mpr ⟨fun q hq => hnames q (List.mem_append_left _ hq), hnodup⟩,
    hnames p List.mem_concat_self, fun hmem => ?_⟩
  exact hnew p.name hmem p.name List.mem_cons_self rfl

theorem check_perm {ps' : List Parameter} (hperm : ps'.Perm ps) (h : check ps = .ok ()) :
    check ps' = .ok () := by
  rw [check_eq_ok] at h ⊢
  exact ⟨fun p hp => h.1 p (hperm.mem_iff.mp hp), (hperm.map name).nodup_iff.mpr h.2⟩

theorem marks_literals (h : check ps = .ok ()) : Text.Marks (literals ps) := by
  intro e he
  obtain ⟨p, hp, rfl⟩ := List.mem_map.mp he
  exact isMark_placeholder ((check_eq_ok.mp h).1 p hp)

theorem placeholder_ne {q : Parameter} (hp : isName p.name = true) (hne : p.name ≠ q.name) :
    p.placeholder ≠ q.placeholder :=
  fun hsame => hne (congrArg Prod.fst (header_eq_of_placeholder_eq hp hsame.symm)).symm

theorem lookup_literals (hp : isName p.name = true) (hnew : p.name ∉ ps.map name) :
    (literals ps).lookup p.placeholder = none := by
  rw [List.lookup_eq_none_iff]
  intro e he
  obtain ⟨q, hq, rfl⟩ := List.mem_map.mp he
  have hne : p.name ≠ q.name := fun hsame => hnew (hsame ▸ List.mem_map_of_mem hq)
  exact bne_iff_ne.mpr (placeholder_ne hp hne)

theorem lookup_literals_of_mem (h : check ps = .ok ()) (hp : p ∈ ps) :
    (literals ps).lookup p.placeholder = some p.literal := by
  obtain ⟨hnames, hnodup⟩ := check_eq_ok.mp h
  obtain ⟨front, back, rfl⟩ := List.append_of_mem hp
  rw [List.map_append, List.map_cons, List.nodup_append] at hnodup
  have hnew : p.name ∉ front.map name :=
    fun hmem => hnodup.2.2 p.name hmem p.name List.mem_cons_self rfl
  rw [literals, List.map_append, List.lookup_append]
  rw [← literals, lookup_literals (hnames p hp) hnew, List.map_cons, List.lookup_cons_self]
  rfl

theorem literals_concat (ps : List Parameter) (p : Parameter) :
    literals (ps ++ [p]) = literals ps ++ [(p.placeholder, p.literal)] := by
  rw [literals, List.map_append]
  rfl

/-- The order of the parameters makes no difference when all are replaced at once. -/
theorem substitute_perm {ps' : List Parameter} (hperm : ps'.Perm ps) (h : check ps = .ok ())
    (s : String) : substitute ps' s = substitute ps s := by
  have hkeys : ((literals ps).map (·.1)).Nodup := by
    obtain ⟨hnames, hnodup⟩ := check_eq_ok.mp h
    rw [literals, List.map_map]
    refine List.pairwise_map.mpr ((List.pairwise_map.mp hnodup).imp_of_mem ?_)
    exact fun {p _} hp _ hne => placeholder_ne (hnames p hp) hne
  have hliterals : (literals ps').Perm (literals ps) := hperm.map _
  rw [substitute, substitute, Text.replaceAtOnce_perm hliterals (marks_literals h) hkeys]

/-! ## §2 One placeholder after the other -/

theorem toList_substitute (ps : List Parameter) (s : String) :
    (substitute ps s).toList = Text.replaceAtOnce (literals ps) s.toList :=
  String.toList_ofList

theorem substitute_nil (s : String) : substitute [] s = s := by
  rw [substitute, literals, List.map_nil, Text.replaceAtOnce_nil, String.ofList_toList]

theorem inline_nil (s : String) : inline [] s = s :=
  String.ofList_toList

theorem toList_inline_concat (ps : List Parameter) (p : Parameter) (s : String) :
    (inline (ps ++ [p]) s).toList =
      Text.replace p.placeholder p.literal (inline ps s).toList := by
  rw [inline, inline, List.foldl_append, String.toList_ofList, String.toList_ofList]
  rfl

/-- Nothing that is put in place of a placeholder brings in one that is still to be replaced: among the
literals of the parameters before it, the placeholder of a parameter occurs as often as in the text
itself. -/
def Settled (ps : List Parameter) (s : String) : Prop :=
  ∀ front p back, ps = front ++ p :: back →
    Text.occurrences p.placeholder (substitute front s).toList =
      Text.occurrences p.placeholder s.toList

theorem settled_nil (s : String) : Settled [] s := by
  intro front p back hps
  cases front <;> cases hps

theorem settled_concat {s : String} :
    Settled (ps ++ [p]) s ↔ Settled ps s ∧
      Text.occurrences p.placeholder (substitute ps s).toList =
        Text.occurrences p.placeholder s.toList := by
  constructor
  · intro h
    refine ⟨fun front q back hps => h front q (back ++ [p]) ?_, h ps p [] rfl⟩
    rw [hps, List.append_assoc, List.cons_append]
  · rintro ⟨hps, hp⟩ front q back hsame
    cases back using List.reverseRecOn with
    | nil =>
      obtain ⟨rfl, rfl⟩ := List.append_inj' hsame rfl |>.imp_right (List.head_eq_of_cons_eq ·)
      exact hp
    | append_singleton back last =>
      rw [← List.cons_append, ← List.append_assoc] at hsame
      exact hps front q back (List.append_inj' hsame rfl).1

/-- **Inlining settled parameters** is replacing all placeholders at once. -/
theorem Settled.inline_eq {s : String} (hsettled : Settled ps s) (h : check ps = .ok ()) :
    inline ps s = substitute ps s := by
  induction ps using List.reverseRecOn with
  | nil => rw [inline_nil, substitute_nil]
  | append_singleton ps p ih =>
    obtain ⟨hps, hname, hnew⟩ := check_concat h
    obtain ⟨hbefore, hp⟩ := settled_concat.mp hsettled
    rw [toList_substitute] at hp
    apply String.toList_inj.mp
    rw [toList_inline_concat, ih hbefore hps, toList_substitute, toList_substitute,
      literals_concat, Text.replace_replaceAtOnce (marks_literals hps) (isMark_placeholder hname)
        (lookup_literals hname hnew) hp]

/-! ## §3 The exact condition -/

/-- There are no opening braces in the values of numbers. -/
def PlainNumbers (ps : List Parameter) : Prop :=
  ∀ p ∈ ps, p.type = .float → '\x7b' ∉ p.value.toList

theorem PlainNumbers.of_concat (h : PlainNumbers (ps ++ [p])) : PlainNumbers ps :=
  fun q hq => h q (List.mem_append_left _ hq)

theorem mem_placeholder (hp : isName p.name = true) {c : Char} (hc : c ∈ p.placeholder) :
    isNameChar c = true ∨ c ∈ ['\x7b', ':', '\x7d'] := by
  rw [placeholder_eq] at hc
  rcases List.mem_cons.mp hc with rfl | hc
  · exact Or.inr (by decide)
  rcases List.mem_append.mp hc with hlabel | hclose
  · rcases mem_label hp hlabel with hname | rfl
    · exact Or.inl hname
    · exact Or.inr (by decide)
  · rw [List.mem_singleton.mp hclose]
    exact Or.inr (by decide)

theorem quote_not_mem_placeholder (hp : isName p.name = true) : '\'' ∉ p.placeholder :=
  fun hc => absurd (mem_placeholder hp hc) (by decide)

theorem literal_of_float (hp : p.type = .float) : p.literal = p.value.toList := by
  rw [literal, hp]

/-- Text and dates are quoted. -/
theorem literal_of_ne_float (hp : p.type ≠ .float) :
    p.literal = '\'' :: p.value.toList.flatMap escapeLiteral ++ ['\''] := by
  rw [literal]
  cases htype : p.type with
  | float => exact absurd htype hp
  | string | date => rfl

/-- Escaping a value is replacing backslashes first, then quotes. -/
theorem flatMap_escapeLiteral (v : List Char) :
    v.flatMap escapeLiteral =
      Text.replace ['\''] ['\\', '\''] (Text.replace ['\\'] ['\\', '\\'] v) := by
  simp only [Text.replace_singleton, List.flatMap_assoc]
  apply List.flatMap_congr
  intro c _
  unfold escapeLiteral
  by_cases hbackslash : c = '\\'
  · subst hbackslash
    rfl
  by_cases hquote : c = '\''
  · subst hquote
    rfl
  simp [hbackslash, hquote]

theorem quotes_or_plain (hnumbers : PlainNumbers (ps ++ [p])) :
    0 < p.literal.count '\'' ∨ p.literal.count '\x7b' = 0 := by
  by_cases hfloat : p.type = .float
  · rw [literal_of_float hfloat]
    exact Or.inr (List.count_eq_zero_of_not_mem (hnumbers p List.mem_concat_self hfloat))
  · rw [literal_of_ne_float hfloat]
    exact Or.inl (List.count_pos_iff.mpr List.mem_cons_self)

/-- Inlining takes away no placeholder of a parameter that is still to be inlined. -/
theorem occurrences_le_inline (h : check (ps ++ [p]) = .ok ()) (s : String) :
    Text.occurrences p.placeholder s.toList ≤
      Text.occurrences p.placeholder (inline ps s).toList := by
  obtain ⟨hps, hname, hnew⟩ := check_concat h
  clear h
  induction ps using List.reverseRecOn with
  | nil => rw [inline_nil]
  | append_singleton ps q ih =>
    obtain ⟨hbefore, hq, -⟩ := check_concat hps
    rw [List.map_append, List.mem_append, not_or] at hnew
    have hne : p.name ≠ q.name := fun hsame => hnew.2 (hsame ▸ List.mem_cons_self)
    rw [toList_inline_concat]
    exact (ih hbefore hnew.1).trans (Text.occurrences_le_replace (isMark_placeholder hname)
      (isMark_placeholder hq) (placeholder_ne hname hne) _)

/-- With each occurrence of a placeholder its literal comes in. -/
theorem count_substitute_concat (h : check (ps ++ [p]) = .ok ()) (c : Char) (s : String) :
    (substitute (ps ++ [p]) s).toList.count c +
        Text.occurrences p.placeholder s.toList * p.placeholder.count c =
      (substitute ps s).toList.count c +
        Text.occurrences p.placeholder s.toList * p.literal.count c := by
  obtain ⟨hps, hname, hnew⟩ := check_concat h
  rw [toList_substitute, toList_substitute, literals_concat]
  exact Text.count_replaceAtOnce_concat (marks_literals hps) (isMark_placeholder hname)
    (lookup_literals hname hnew) c s.toList

theorem count_inline_concat (ps : List Parameter) (hp : isName p.name = true) (c : Char)
    (s : String) :
    (inline (ps ++ [p]) s).toList.count c +
        Text.occurrences p.placeholder (inline ps s).toList * p.placeholder.count c =
      (inline ps s).toList.count c +
        Text.occurrences p.placeholder (inline ps s).toList * p.literal.count c := by
  rw [toList_inline_concat]
  exact Text.count_replace (isMark_placeholder hp) c (inline ps s).toList

/-- What is put in place inside of a literal shows: more quotes, or fewer opening braces. -/
theorem counts_inline (h : check ps = .ok ()) (hnumbers : PlainNumbers ps) (s : String) :
    (substitute ps s).toList.count '\'' ≤ (inline ps s).toList.count '\'' ∧
    ((substitute ps s).toList.count '\'' = (inline ps s).toList.count '\'' →
      (inline ps s).toList.count '\x7b' ≤ (substitute ps s).toList.count '\x7b' ∧
      ((inline ps s).toList.count '\x7b' = (substitute ps s).toList.count '\x7b' →
        Settled ps s)) := by
  induction ps using List.reverseRecOn with
  | nil =>
    rw [inline_nil, substitute_nil]
    exact ⟨Nat.le_refl _, fun _ => ⟨Nat.le_refl _, fun _ => settled_nil s⟩⟩
  | append_singleton ps p ih =>
    have hle := occurrences_le_inline h s
    have hq := count_substitute_concat h '\'' s
    have ho := count_substitute_concat h '\x7b' s
    obtain ⟨hps, hname, -⟩ := check_concat h
    have hq' := count_inline_concat ps hname '\'' s
    have ho' := count_inline_concat ps hname '\x7b' s
    obtain ⟨hquotes, hrest⟩ := ih hps hnumbers.of_concat
    -- With each occurrence one opening brace goes, and no quote.
    rw [List.count_eq_zero_of_not_mem (quote_not_mem_placeholder hname), Nat.mul_zero,
      Nat.add_zero] at hq hq'
    rw [(isMark_placeholder hname).count_open, Nat.mul_one] at ho ho'
    have hmul := Nat.mul_le_mul_right (p.literal.count '\'') hle
    refine ⟨by omega, fun hsameQuotes => ?_⟩
    have hsame : Text.occurrences p.placeholder s.toList * p.literal.count '\'' =
        Text.occurrences p.placeholder (inline ps s).toList * p.literal.count '\'' := by omega
    -- A further occurrence would bring in quotes, or it only takes its brace away.
    have hbraces : (inline (ps ++ [p]) s).toList.count '\x7b' + (substitute ps s).toList.count '\x7b' +
          Text.occurrences p.placeholder (inline ps s).toList =
        (substitute (ps ++ [p]) s).toList.count '\x7b' + (inline ps s).toList.count '\x7b' +
          Text.occurrences p.placeholder s.toList := by
      rcases quotes_or_plain hnumbers with hpos | hplain
      · rw [Nat.eq_of_mul_eq_mul_right hpos hsame] at ho ⊢
        omega
      · rw [hplain, Nat.mul_zero, Nat.add_zero] at ho ho'
        omega
    obtain ⟨hopen, hsettled⟩ := hrest (by omega)
    refine ⟨by omega, fun hsameOpen => ?_⟩
    have hbefore := hsettled (by omega)
    rw [settled_concat, ← hbefore.inline_eq hps]
    exact ⟨hbefore, by omega⟩

theorem inline_eq_substitute_iff (h : check ps = .ok ()) (hnumbers : PlainNumbers ps) (s : String) :
    inline ps s = substitute ps s ↔ Settled ps s := by
  refine ⟨fun hsame => ?_, fun hsettled => hsettled.inline_eq h⟩
  obtain ⟨-, hquotes⟩ := counts_inline h hnumbers s
  rw [hsame] at hquotes
  exact (hquotes rfl).2 rfl

/-! ## §4 Placeholders inside of values -/

/-- The text value of `q`, put into the text, brings in the placeholder of `p`. -/
def BringsIn (s : String) (q p : Parameter) : Prop :=
  q.placeholder <:+: s.toList ∧ q.type ≠ .float ∧ p.placeholder <:+: q.value.toList

theorem escapeLiteral_cases (c : Char) :
    (c = '\\' ∨ c = '\'') ∧ escapeLiteral c = ['\\', c] ∨ escapeLiteral c = [c] := by
  rw [escapeLiteral]
  by_cases hbackslash : c = '\\'
  · exact Or.inl ⟨Or.inl hbackslash, by rw [if_pos hbackslash, hbackslash]⟩
  · by_cases hquote : c = '\''
    · exact Or.inl ⟨Or.inr hquote, by rw [if_neg hbackslash, if_pos hquote, hquote]⟩
    · exact Or.inr (by rw [if_neg hbackslash, if_neg hquote])

theorem isPrefixOf_flatMap_escapeLiteral {part : List Char} (hquote : '\'' ∉ part)
    (hbackslash : '\\' ∉ part) (v : List Char) :
    part.isPrefixOf (v.flatMap escapeLiteral) = part.isPrefixOf v := by
  induction part generalizing v with
  | nil => rw [List.isPrefixOf_nil_left, List.isPrefixOf_nil_left]
  | cons c part ih =>
    rw [List.mem_cons, not_or] at hquote hbackslash
    cases v with
    | nil => rfl
    | cons d v =>
      rw [List.flatMap_cons]
      rcases escapeLiteral_cases d with ⟨hd, hescaped⟩ | hescaped
      · -- Neither the backslash nor what stands behind it is in the part.
        have hne : c ≠ d := by
          rintro rfl
          exact hd.elim (fun h => hbackslash.1 h.symm) fun h => hquote.1 h.symm
        rw [hescaped, List.cons_append, List.isPrefixOf_cons_cons, List.isPrefixOf_cons_cons,
          beq_false_of_ne (Ne.symm hbackslash.1), beq_false_of_ne hne, Bool.false_and,
          Bool.false_and]
      · rw [hescaped, List.singleton_append, List.isPrefixOf_cons_cons, List.isPrefixOf_cons_cons,
          ih hquote.2 hbackslash.2]

/-- Escaping a value neither brings in marks nor takes them away. -/
theorem occurrences_flatMap_escapeLiteral {m : List Char} (hm : Text.IsMark m) (hquote : '\'' ∉ m)
    (hbackslash : '\\' ∉ m) (v : List Char) :
    Text.occurrences m (v.flatMap escapeLiteral) = Text.occurrences m v := by
  induction v with
  | nil => rfl
  | cons c v ih =>
    have hhere := isPrefixOf_flatMap_escapeLiteral hquote hbackslash (c :: v)
    rw [List.flatMap_cons] at hhere ⊢
    rcases escapeLiteral_cases c with ⟨hc, hescaped⟩ | hescaped
    · have hplain : '\x7b' ∉ ['\\', c] ∧ '\x7b' ∉ [c] := by
        rcases hc with rfl | rfl <;> decide
      rw [hescaped, hm.occurrences_plain_append hplain.1, ih, ← List.singleton_append,
        hm.occurrences_plain_append hplain.2]
    · rw [hescaped, List.singleton_append] at hhere ⊢
      rw [Text.occurrences, Text.occurrences, hhere, ih]

section

variable {q : Parameter} (hp : isName p.name = true)
  (hnumber : q.type = .float → '\x7b' ∉ q.value.toList)
include hp hnumber

theorem apart_literal : Text.Apart p.placeholder q.literal := by
  have hmark := isMark_placeholder hp
  by_cases hfloat : q.type = .float
  · rw [literal_of_float hfloat]
    exact hmark.apart_plain (hnumber hfloat)
  · rw [literal_of_ne_float hfloat]
    exact .of_ending (quote_not_mem_placeholder hp) hmark.ne_nil _

theorem occurrences_literal_eq_zero_iff :
    Text.occurrences p.placeholder q.literal = 0 ↔
      ¬ (q.type ≠ .float ∧ p.placeholder <:+: q.value.toList) := by
  have hmark := isMark_placeholder hp
  have hquote := quote_not_mem_placeholder hp
  have hbackslash : '\\' ∉ p.placeholder := fun hc => absurd (mem_placeholder hp hc) (by decide)
  by_cases hfloat : q.type = .float
  · rw [literal_of_float hfloat, hmark.occurrences_plain (hnumber hfloat)]
    exact iff_of_true rfl fun h => h.1 hfloat
  · -- The quotes keep the value apart from what stands around it.
    have hvalue : Text.occurrences p.placeholder q.literal =
        Text.occurrences p.placeholder q.value.toList := by
      have hopen := Text.occurrences_append_cons hquote hmark.ne_nil []
        (q.value.toList.flatMap escapeLiteral ++ ['\''])
      rw [List.nil_append, Text.occurrences_append_cons hquote hmark.ne_nil,
        occurrences_flatMap_escapeLiteral hmark hquote hbackslash] at hopen
      rw [literal_of_ne_float hfloat, List.cons_append, hopen]
      exact Nat.zero_add _
    rw [hvalue, Text.occurrences_eq_zero_iff hmark.ne_nil, not_and]
    exact ⟨fun h _ => h, fun h => h hfloat⟩

theorem mul_occurrences_eq_zero_iff (hq : isName q.name = true) (s : String) :
    Text.occurrences q.placeholder s.toList * Text.occurrences p.placeholder q.literal = 0 ↔
      ¬ BringsIn s q p := by
  rw [Nat.mul_eq_zero, Text.occurrences_eq_zero_iff (isMark_placeholder hq).ne_nil,
    occurrences_literal_eq_zero_iff hp hnumber, ← not_and_or]
  rfl

end

section

variable (hnumbers : PlainNumbers ps) (hp : isName p.name = true)
include hnumbers hp

theorem occurrences_substitute_concat {q : Parameter} (h : check (ps ++ [q]) = .ok ())
    (hnumber : q.type = .float → '\x7b' ∉ q.value.toList) (hne : p.name ≠ q.name) {s : String}
    (hs : Text.WellBraced s.toList) :
    Text.occurrences p.placeholder (substitute (ps ++ [q]) s).toList =
      Text.occurrences p.placeholder (substitute ps s).toList +
        Text.occurrences q.placeholder s.toList * Text.occurrences p.placeholder q.literal := by
  obtain ⟨hps, hq, hnew⟩ := check_concat h
  have hliterals : ∀ e ∈ literals ps, Text.Apart p.placeholder e.2 := by
    intro e he
    obtain ⟨q, hq, rfl⟩ := List.mem_map.mp he
    exact apart_literal hp (hnumbers q hq)
  rw [toList_substitute, toList_substitute, literals_concat]
  exact Text.occurrences_replaceAtOnce_concat (marks_literals hps) (isMark_placeholder hq)
    (lookup_literals hq hnew) (isMark_placeholder hp) (placeholder_ne hp hne) hliterals
    (apart_literal hp hnumber) hs

/-- Where opening braces stand only at marks, what is put in place brings in a placeholder exactly when
a text value does. -/
theorem occurrences_substitute_eq_iff (h : check ps = .ok ()) (hnew : p.name ∉ ps.map name)
    {s : String} (hs : Text.WellBraced s.toList) :
    Text.occurrences p.placeholder (substitute ps s).toList =
        Text.occurrences p.placeholder s.toList ↔
      ∀ q ∈ ps, ¬ BringsIn s q p := by
  -- The induction is on the last parameter, which is put in place after all others.
  induction ps using List.reverseRecOn with
  | nil =>
    rw [substitute_nil]
    exact iff_of_true rfl (List.forall_mem_nil _)
  | append_singleton ps q ih =>
    obtain ⟨hps, hq, -⟩ := check_concat h
    rw [List.map_append, List.mem_append, not_or] at hnew
    have hne : p.name ≠ q.name := fun hsame => hnew.2 (hsame ▸ List.mem_cons_self)
    have hbefore := hnumbers.of_concat
    have hnumber := hnumbers q List.mem_concat_self
    -- Occurrences are never lost, so the whole list brings none in exactly if no step does.
    have hle := Text.occurrences_le_replaceAtOnce (marks_literals hps) (isMark_placeholder hp)
      (lookup_literals hp hnew.1) s.toList
    rw [← toList_substitute] at hle
    rw [occurrences_substitute_concat hbefore hp h hnumber hne hs, List.forall_mem_append,
      List.forall_mem_singleton, ← ih hbefore hps hnew.1,
      ← mul_occurrences_eq_zero_iff hp hnumber hq]
    omega

end

/-- **Parameters are settled** in such a text exactly when no text value brings in the placeholder of a
parameter bound later. -/
theorem settled_iff (h : check ps = .ok ()) (hnumbers : PlainNumbers ps) {s : String}
    (hs : Text.WellBraced s.toList) :
    Settled ps s ↔ ps.Pairwise fun q p => ¬ BringsIn s q p := by
  induction ps using List.reverseRecOn with
  | nil => exact iff_of_true (settled_nil s) .nil
  | append_singleton ps p ih =>
    obtain ⟨hps, hname, hnew⟩ := check_concat h
    have hbefore := hnumbers.of_concat
    rw [settled_concat, ih hps hbefore, occurrences_substitute_eq_iff hbefore hname hps hnew hs,
      List.pairwise_append]
    simp

end

end Parameter

/-! ## §5 Statements with their values -/

namespace Fragment

/-- A fragment as text, with the literals of its parameters in their places. -/
def shown (f : Fragment) : String :=
  String.ofList (f.flatMap fun
    | .text s => s.toList
    | .parameter p => p.literal)

variable {f : Fragment}

theorem IsSound.wellBraced (hf : f.IsSound) : Text.WellBraced f.chars := by
  induction f with
  | nil => exact .nil
  | cons piece f ih =>
    obtain ⟨hpiece, hf⟩ := List.forall_mem_cons.mp hf
    have hrest := ih hf
    cases piece with
    | text s => exact .plain_append (fun hc => absurd (hpiece _ hc) (by decide)) hrest
    | parameter p => exact .mark (Parameter.isMark_placeholder hpiece) hrest

/-- Replacing the placeholders in the text of a fragment puts the literals in the places of the
parameters. -/
theorem IsSound.substitute_eq_shown (hf : f.IsSound) {ps : List Parameter}
    (hps : Parameter.check ps = .ok ()) (hmem : ∀ p ∈ f.parameters, p ∈ ps) :
    Parameter.substitute ps f.sql = f.shown := by
  have hmarks := Parameter.marks_literals hps
  rw [Parameter.substitute, sql, shown, String.toList_ofList]
  apply congrArg
  induction f with
  | nil => rfl
  | cons piece f ih =>
    obtain ⟨hpiece, hf⟩ := List.forall_mem_cons.mp hf
    have hrest := ih hf
    rw [chars, List.flatMap_cons, List.flatMap_cons]
    -- Fixed text has no brace to be read as a mark, and a parameter is a mark of the list.
    cases piece with
    | text s =>
      have hbrace : '\x7b' ∉ s.toList := fun hc => absurd (hpiece _ hc) (by decide)
      exact (Text.replaceAtOnce_plain_append hmarks hbrace (chars f)).trans
        (congrArg (s.toList ++ ·) (hrest hmem))
    | parameter p =>
      obtain ⟨hp, hmem⟩ := List.forall_mem_cons.mp hmem
      have hcut := Text.replaceAtOnce_append_mark hmarks (Parameter.isMark_placeholder hpiece) []
        (chars f)
      rw [List.nil_append, Parameter.lookup_literals_of_mem hps hp] at hcut
      exact hcut.trans (congrArg (p.literal ++ ·) (hrest hmem))

theorem placeholder_isInfix {p : Parameter} (hp : p ∈ f.parameters) : p.placeholder <:+: f.chars := by
  obtain ⟨piece, hpiece, hsome⟩ := List.mem_filterMap.mp hp
  obtain ⟨front, back, rfl⟩ := List.append_of_mem hpiece
  cases piece with
  | text s => cases hsome
  | parameter q =>
    cases hsome
    exact ⟨chars front, chars back, by simp [chars, pieceChars]⟩

/-- **The text of a statement** shows its values as they are exactly when no text value holds the
placeholder of a parameter bound later. -/
theorem IsSound.inline_eq_shown_iff (hf : f.IsSound) (h : Parameter.check f.parameters = .ok ())
    (hnumbers : Parameter.PlainNumbers f.parameters) :
    Parameter.inline f.parameters f.sql = f.shown ↔
      f.parameters.Pairwise fun q p =>
        q.type ≠ .float → ¬ p.placeholder <:+: q.value.toList := by
  have hchars : f.sql.toList = f.chars := String.toList_ofList
  rw [← hf.substitute_eq_shown h fun _ hp => hp, Parameter.inline_eq_substitute_iff h hnumbers,
    Parameter.settled_iff h hnumbers (hchars ▸ hf.wellBraced)]
  apply List.Pairwise.iff_of_mem
  intro q p hq hp
  have hthere : q.placeholder <:+: f.sql.toList := hchars ▸ placeholder_isInfix hq
  rw [Parameter.BringsIn, not_and, not_and]
  exact ⟨fun h => h hthere, fun h _ => h⟩

end Fragment

namespace Parameter

section

variable {ps : List Parameter} {p : Parameter}

/-- **Inlining**: numbers are put in place as they are, all else in quotes and escaped. Parameters in any
order give the text with all placeholders replaced at once, as long as what is put in place of one
brings in none that is still to be replaced. With plain numbers this is the exact condition, and where
opening braces stand only at marks it says that no text value holds the placeholder of a parameter bound
later. -/
theorem inline_simultaneous (h : check ps = .ok ()) :
    (∀ p ∈ ps, (p.type = .float → p.literal = p.value.toList) ∧
      (p.type ≠ .float → p.literal = '\'' ::
        Text.replace ['\''] ['\\', '\''] (Text.replace ['\\'] ['\\', '\\'] p.value.toList) ++
          ['\''])) ∧
    (∀ ps' s, ps'.Perm ps → Settled ps' s → inline ps' s = substitute ps s) ∧
    (PlainNumbers ps → ∀ s, (inline ps s = substitute ps s ↔ Settled ps s) ∧
      (Text.WellBraced s.toList → (Settled ps s ↔ ps.Pairwise fun q p => ¬ BringsIn s q p))) := by
  refine ⟨fun p _ => ⟨literal_of_float, fun htype => ?_⟩, fun ps' s hperm hsettled => ?_,
    fun hnumbers s => ⟨?_, fun hs => ?_⟩⟩
  · rw [literal_of_ne_float htype, flatMap_escapeLiteral]
  · rw [hsettled.inline_eq (check_perm hperm h), substitute_perm hperm h]
  · exact inline_eq_substitute_iff h hnumbers s
  · exact settled_iff h hnumbers hs

end

/-- Two desks, the first of which is called like the placeholder of the second. -/
def lookalikes : List Parameter :=
  [⟨"p0_0", .string, "\x7bp0_1:String\x7d"⟩, ⟨"p0_1", .string, "EQ"⟩]

/-- The condition that a desk is one of the two. -/
def eitherDesk : Fragment :=
  .text "desk IN (" :: Fragment.joined ", " (lookalikes.map fun p => [.parameter p]) ++ [.text ")"]

theorem wellBraced_eitherDesk : Text.WellBraced eitherDesk.sql.toList := by
  have hsound : eitherDesk.IsSound := by
    simp only [eitherDesk, lookalikes, List.map_cons, List.map_nil, Fragment.joined,
      Fragment.IsSound, List.cons_append, List.nil_append, List.forall_mem_cons, Piece.IsSound,
      List.not_mem_nil, false_implies, implies_true, and_true]
    decide
  rw [Fragment.sql, String.toList_ofList]
  exact hsound.wellBraced

theorem inline_simultaneous_desks :
    check lookalikes.reverse = .ok () ∧ PlainNumbers lookalikes.reverse ∧
      Settled lookalikes.reverse eitherDesk.sql ∧
      inline lookalikes.reverse eitherDesk.sql = substitute lookalikes eitherDesk.sql := by
  have hcheck : check lookalikes.reverse = .ok () := by decide
  have hnumbers : PlainNumbers lookalikes.reverse := by
    unfold PlainNumbers
    decide
  have hpairwise : lookalikes.reverse.Pairwise fun q p => ¬ BringsIn eitherDesk.sql q p := by
    refine List.pairwise_pair.mpr fun hbringsIn => ?_
    exact absurd hbringsIn.2.2 (by decide)
  have hsettled : Settled lookalikes.reverse eitherDesk.sql :=
    (((inline_simultaneous hcheck).2.2 hnumbers eitherDesk.sql).2 wellBraced_eitherDesk).mpr hpairwise
  refine ⟨hcheck, hnumbers, hsettled, ?_⟩
  exact (inline_simultaneous (by decide)).2.1 _ _ (List.reverse_perm lookalikes) hsettled

/-- **Inlining is not simultaneous**: the placeholder inside of the first value is replaced too, its
quotes end the literal, and the text depends on the order of the parameters. -/
theorem inline_rereads :
    check lookalikes = .ok () ∧
      substitute lookalikes eitherDesk.sql = "desk IN ('\x7bp0_1:String\x7d', 'EQ')" ∧
      inline lookalikes eitherDesk.sql = "desk IN (''EQ'', 'EQ')" ∧
      inline lookalikes.reverse eitherDesk.sql ≠ inline lookalikes eitherDesk.sql := by
  decide +kernel

end Parameter

end SnapshotAnalytics
