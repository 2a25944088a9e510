import Mathlib.Data.List.Basic
import Mathlib.Data.List.Find
import Mathlib.Data.List.Nodup
import SnapshotAnalytics.Text.Search

/-!
# Replacing marks

A mark is a text in braces, without braces inside. Marks in a text never overlap, so the occurrences of
a mark cut the text into parts that are treated one by one. Replacing marks one after the other comes
down to replacing all of them at once, as long as what is put in their places brings in none of those
that are still to be replaced.
-/

namespace SnapshotAnalytics.Text

/-! ## §1 Occurrences -/

/-- At how many places of a text the non-empty `part` stands. -/
def occurrences (part : List Char) : List Char → Nat
  | [] => 0
  | c :: s => (if part.isPrefixOf (c :: s) then 1 else 0) + occurrences part s

theorem occurrences_eq_zero_iff {part s : List Char} (hne : part ≠ []) :
    occurrences part s = 0 ↔ ¬ part <:+: s := by
  induction s with
  | nil => simp [occurrences, hne]
  | cons c s ih =>
    rw [occurrences, List.infix_cons_iff, not_or, ← ih, ← List.isPrefixOf_iff_prefix]
    split <;> simp [*]

/-- Where a part does not reach beyond `x`, it is not seen what stands behind. -/
theorem isPrefixOf_append_cons {part x : List Char} {c : Char} (hc : c ∉ part.drop x.length)
    (t : List Char) : part.isPrefixOf (x ++ c :: t) = part.isPrefixOf x := by
  rw [Bool.eq_iff_iff, List.isPrefixOf_iff_prefix, List.isPrefixOf_iff_prefix]
  refine ⟨fun h => ?_, fun h => h.trans (List.prefix_append _ _)⟩
  rcases List.prefix_or_prefix_of_prefix h (List.prefix_append x _) with hinside | ⟨z, rfl⟩
  · exact hinside
  -- What is left of the part behind `x` would start with the character.
  rw [List.drop_left] at hc
  rw [List.prefix_append_right_inj] at h
  cases z with
  | nil => exact (List.append_nil x).symm ▸ List.prefix_rfl
  | cons d z =>
    obtain ⟨rfl, -⟩ := List.cons_prefix_cons.mp h
    exact absurd List.mem_cons_self hc

/-- A character that is not in a part keeps its occurrences before and behind it apart. -/
theorem occurrences_append_cons {part : List Char} {c : Char} (hc : c ∉ part) (hne : part ≠ [])
    (x t : List Char) :
    occurrences part (x ++ c :: t) = occurrences part x + occurrences part t := by
  have hdrop (x : List Char) : c ∉ part.drop x.length := fun h => hc (List.mem_of_mem_drop h)
  induction x with
  | nil =>
    obtain ⟨d, part, rfl⟩ := List.exists_cons_of_ne_nil hne
    have hd : (d == c) = false := beq_false_of_ne (Ne.symm (List.ne_of_not_mem_cons hc))
    rw [List.nil_append, occurrences.eq_2, List.isPrefixOf_cons_cons, hd]
    rfl
  | cons d x ih =>
    rw [List.cons_append, occurrences, ← List.cons_append, isPrefixOf_append_cons (hdrop (d :: x)),
      ih, occurrences, Nat.add_assoc]

/-! ## §2 Marks -/

/-- A text in braces, without braces inside. -/
def IsMark (m : List Char) : Prop :=
  ∃ label, m = '\x7b' :: (label ++ ['\x7d']) ∧ '\x7b' ∉ label ∧ '\x7d' ∉ label

namespace IsMark

variable {m m' : List Char}

theorem ne_nil (hm : IsMark m) : m ≠ [] := by
  obtain ⟨label, rfl, -, -⟩ := hm
  exact List.cons_ne_nil _ _

/-- A mark opens with its first character and nowhere else. -/
theorem open_not_mem_drop (hm : IsMark m) {n : Nat} (hn : n ≠ 0) : '\x7b' ∉ m.drop n := by
  obtain ⟨label, rfl, hopen, -⟩ := hm
  obtain ⟨n, rfl⟩ := Nat.exists_eq_succ_of_ne_zero hn
  rw [Nat.succ_eq_add_one, List.drop_succ_cons]
  intro h
  rcases List.mem_append.mp (List.mem_of_mem_drop h) with hlabel | hclose
  · exact hopen hlabel
  · exact absurd hclose (by decide)

theorem count_open (hm : IsMark m) : m.count '\x7b' = 1 := by
  obtain ⟨label, rfl, hopen, -⟩ := hm
  rw [List.count_cons_self, List.count_append, List.count_eq_zero_of_not_mem hopen]
  rfl

theorem isPrefixOf_append_open (hm : IsMark m) {x : List Char} (hx : x ≠ []) (t : List Char) :
    m.isPrefixOf (x ++ '\x7b' :: t) = m.isPrefixOf x :=
  isPrefixOf_append_cons (hm.open_not_mem_drop fun h => hx (List.length_eq_zero_iff.mp h)) t

theorem isPrefixOf_of_ne (hm : IsMark m) {c : Char} (hc : c ≠ '\x7b') (s : List Char) :
    m.isPrefixOf (c :: s) = false := by
  obtain ⟨label, rfl, -, -⟩ := hm
  rw [List.isPrefixOf_cons_cons, beq_false_of_ne (Ne.symm hc), Bool.false_and]

/-- Where one mark stands, no other one does. -/
theorem isPrefixOf_mark (hm : IsMark m) (hm' : IsMark m') (t : List Char) :
    m.isPrefixOf (m' ++ t) = (m == m') := by
  rw [Bool.eq_iff_iff, List.isPrefixOf_iff_prefix, beq_iff_eq]
  refine ⟨?_, fun h => h ▸ List.prefix_append m t⟩
  rintro ⟨r, hr⟩
  -- The first closing brace stands behind the label.
  have hlabel (label rest : List Char) (h : '\x7d' ∉ label) :
      (label ++ '\x7d' :: rest).takeWhile (· != '\x7d') = label := by
    rw [List.takeWhile_append_of_pos fun c hc => bne_iff_ne.mpr (ne_of_mem_of_not_mem hc h),
      List.takeWhile_cons_of_neg (by decide), List.append_nil]
  obtain ⟨label, rfl, -, hclose⟩ := hm
  obtain ⟨label', rfl, -, hclose'⟩ := hm'
  simp only [List.cons_append, List.append_assoc, List.nil_append, List.cons_inj_right] at hr
  rw [← hlabel label r hclose, hr, hlabel label' t hclose']

theorem eq_of_append_eq (hm : IsMark m) (hm' : IsMark m') {s t : List Char}
    (h : m ++ s = m' ++ t) : m = m' ∧ s = t := by
  have hhere := hm.isPrefixOf_mark hm' t
  rw [← h, List.isPrefixOf_iff_prefix.mpr (List.prefix_append m s)] at hhere
  obtain rfl := beq_iff_eq.mp hhere.symm
  exact ⟨rfl, List.append_cancel_left h⟩

theorem occurrences_append_open (hm : IsMark m) (x t : List Char) :
    occurrences m (x ++ '\x7b' :: t) = occurrences m x + occurrences m ('\x7b' :: t) := by
  induction x with
  | nil => rw [List.nil_append, occurrences.eq_1, Nat.zero_add]
  | cons c x ih =>
    rw [List.cons_append, occurrences, ← List.cons_append,
      hm.isPrefixOf_append_open (List.cons_ne_nil c x), ih, occurrences.eq_2 m c x, Nat.add_assoc]

/-- No mark starts in a text without opening braces. -/
theorem occurrences_plain_append (hm : IsMark m) {x : List Char} (hx : '\x7b' ∉ x) (t : List Char) :
    occurrences m (x ++ t) = occurrences m t := by
  induction x with
  | nil => rfl
  | cons c x ih =>
    rw [List.mem_cons, not_or] at hx
    rw [List.cons_append, occurrences, hm.isPrefixOf_of_ne (Ne.symm hx.1), ih hx.2]
    exact Nat.zero_add _

theorem occurrences_append_mark (hm : IsMark m) (hm' : IsMark m') (x t : List Char) :
    occurrences m (x ++ m' ++ t) =
      occurrences m x + (if m = m' then 1 else 0) + occurrences m t := by
  have hhere := hm.isPrefixOf_mark hm' t
  have hrest := hm.occurrences_plain_append (hm'.open_not_mem_drop Nat.one_ne_zero) t
  obtain ⟨label, rfl, -, -⟩ := hm'
  rw [List.drop_succ_cons, List.drop_zero] at hrest
  rw [List.append_assoc, List.cons_append, hm.occurrences_append_open, occurrences, hrest,
    ← List.cons_append, hhere, Nat.add_assoc]
  simp only [beq_iff_eq]

theorem exists_first {s : List Char} (h : occurrences m s ≠ 0) :
    ∃ x t, s = x ++ m ++ t ∧ occurrences m x = 0 := by
  induction s with
  | nil => exact absurd rfl h
  | cons c s ih =>
    by_cases hhere : m.isPrefixOf (c :: s) = true
    · obtain ⟨t, ht⟩ := List.isPrefixOf_iff_prefix.mp hhere
      exact ⟨[], t, ht.symm, rfl⟩
    · rw [occurrences, if_neg hhere, Nat.zero_add] at h
      obtain ⟨x, t, rfl, hx⟩ := ih h
      refine ⟨c :: x, t, rfl, ?_⟩
      rw [occurrences, hx, if_neg fun hprefix => hhere ?_]
      rw [List.isPrefixOf_iff_prefix] at hprefix ⊢
      exact hprefix.trans ⟨m ++ t, by simp⟩

/-- **Cutting at a mark**: in a text the mark does not occur, or the text is what stands before its
first occurrence, the mark, and a rest. -/
theorem cut_induction (hm : IsMark m) {P : List Char → Prop}
    (absent : ∀ s, occurrences m s = 0 → P s)
    (present : ∀ x t, occurrences m x = 0 → P t → P (x ++ m ++ t)) (s : List Char) : P s := by
  induction hn : s.length using Nat.strongRecOn generalizing s with
  | ind n ih =>
    by_cases hnone : occurrences m s = 0
    · exact absent s hnone
    · obtain ⟨x, t, rfl, hx⟩ := exists_first hnone
      have hpos := List.length_pos_iff.mpr hm.ne_nil
      have hlt : t.length < n := by
        rw [← hn, List.length_append, List.length_append]
        omega
      exact present x t hx (ih t.length hlt t rfl)

end IsMark

/-! ## §3 Replacing at once -/

/-- Replace the parts of a table, found from left to right without overlap. The number counts the
characters of an occurrence that are still to be passed over. -/
def replaceAtOnceFrom (table : List (List Char × List Char)) : Nat → List Char → List Char
  | _, [] => []
  | passing + 1, _ :: s => replaceAtOnceFrom table passing s
  | 0, c :: s =>
    match table.find? fun e => e.1.isPrefixOf (c :: s) with
    | some (part, replacement) => replacement ++ replaceAtOnceFrom table (part.length - 1) s
    | none => c :: replaceAtOnceFrom table 0 s

/-- Replace every part of a table by what stands beside it. What is put in place is not read again. -/
def replaceAtOnce (table : List (List Char × List Char)) (s : List Char) : List Char :=
  replaceAtOnceFrom table 0 s

/-- A character is replaced wherever it stands. -/
theorem replace_singleton (c : Char) (replacement s : List Char) :
    replace [c] replacement s = s.flatMap fun d => if d = c then replacement else [d] := by
  rw [replace]
  induction s with
  | nil => rfl
  | cons d s ih =>
    rw [replaceFrom, List.flatMap_cons]
    by_cases hd : d = c
    · subst hd
      rw [if_pos (by simp), if_pos rfl, ← ih]
      rfl
    · rw [if_neg (by simp [Ne.symm hd]), if_neg hd, ih]
      rfl

/-- To replace one part is to replace those of a table with one entry. -/
theorem replace_eq (part replacement s : List Char) :
    replace part replacement s = replaceAtOnce [(part, replacement)] s := by
  rw [replace, replaceAtOnce]
  generalize 0 = passing
  induction s generalizing passing with
  | nil => cases passing <;> rfl
  | cons c s ih =>
    cases passing with
    | zero =>
      rw [replaceFrom, replaceAtOnceFrom, List.find?_cons]
      cases part.isPrefixOf (c :: s) with
      | true => rw [if_pos rfl, ih]
      | false => rw [if_neg Bool.false_ne_true, ih]; rfl
    | succ passing => rw [replaceFrom, replaceAtOnceFrom, ih]

theorem replaceAtOnceFrom_length (table : List (List Char × List Char)) (x t : List Char) :
    replaceAtOnceFrom table x.length (x ++ t) = replaceAtOnce table t := by
  induction x with
  | nil => rfl
  | cons c x ih => exact ih

variable {table : List (List Char × List Char)} {m r : List Char}

/-- The parts of a table are marks. -/
def Marks (table : List (List Char × List Char)) : Prop :=
  ∀ e ∈ table, IsMark e.1

theorem replaceAtOnceFrom_append_open (hmarks : Marks table) {passing : Nat} {x : List Char}
    (hpassing : passing ≤ x.length) (t : List Char) :
    replaceAtOnceFrom table passing (x ++ '\x7b' :: t) =
      replaceAtOnceFrom table passing x ++ replaceAtOnce table ('\x7b' :: t) := by
  induction x generalizing passing with
  | nil =>
    rw [Nat.le_zero.mp hpassing]
    rfl
  | cons c x ih =>
    cases passing with
    | zero =>
      have hfind : (table.find? fun e => e.1.isPrefixOf (c :: (x ++ '\x7b' :: t))) =
          table.find? fun e => e.1.isPrefixOf (c :: x) :=
        List.find?_congr fun e he => (hmarks e he).isPrefixOf_append_open (List.cons_ne_nil c x) t
      rw [List.cons_append, replaceAtOnceFrom, replaceAtOnceFrom, hfind]
      cases hhere : table.find? fun e => e.1.isPrefixOf (c :: x) with
      | none => exact congrArg (c :: ·) (ih (Nat.zero_le _))
      | some e =>
        -- An occurrence that starts in `x` ends in it.
        have hlength : e.1.length - 1 ≤ x.length := by
          have hprefix := List.isPrefixOf_iff_prefix.mp
            (List.find?_some (p := fun (e : List Char × List Char) => e.1.isPrefixOf (c :: x)) hhere)
          exact Nat.sub_le_of_le_add hprefix.length_le
        exact (congrArg (e.2 ++ ·) (ih hlength)).trans (List.append_assoc ..).symm
    | succ passing => exact ih (Nat.le_of_succ_le_succ hpassing)

/-- A text without opening braces stays as it is. -/
theorem replaceAtOnce_plain_append (hmarks : Marks table) {x : List Char} (hx : '\x7b' ∉ x)
    (t : List Char) : replaceAtOnce table (x ++ t) = x ++ replaceAtOnce table t := by
  induction x with
  | nil => rfl
  | cons c x ih =>
    rw [List.mem_cons, not_or] at hx
    have hnone : (table.find? fun e => e.1.isPrefixOf (c :: (x ++ t))) = none :=
      List.find?_eq_none.mpr fun e he => by
        rw [(hmarks e he).isPrefixOf_of_ne (Ne.symm hx.1)]
        exact Bool.false_ne_true
    rw [List.cons_append, replaceAtOnce, replaceAtOnceFrom, hnone, List.cons_append, ← ih hx.2]
    rfl

theorem find?_mark (hmarks : Marks table) (hm : IsMark m) (t : List Char) :
    (table.find? fun e => e.1.isPrefixOf (m ++ t)) = (table.lookup m).map fun r => (m, r) := by
  induction table with
  | nil => rfl
  | cons e table ih =>
    obtain ⟨he, htable⟩ := List.forall_mem_cons.mp hmarks
    rw [List.find?_cons, he.isPrefixOf_mark hm, List.lookup_cons, ih htable, Bool.beq_comm]
    cases hsame : m == e.1 with
    | true => exact congrArg some (Prod.ext (beq_iff_eq.mp hsame).symm rfl)
    | false => rfl

/-- A mark is replaced by what the table has for it, or stays; before and behind it the text is treated
by itself. -/
theorem replaceAtOnce_append_mark (hmarks : Marks table) (hm : IsMark m) (x t : List Char) :
    replaceAtOnce table (x ++ m ++ t) =
      replaceAtOnce table x ++ (table.lookup m).getD m ++ replaceAtOnce table t := by
  -- At the mark only its own entry applies. Behind its first brace there is no other before it
  -- ends.
  have hhere : replaceAtOnce table (m ++ t) = (table.lookup m).getD m ++ replaceAtOnce table t := by
    have hfind := find?_mark hmarks hm t
    have hrest := replaceAtOnce_plain_append hmarks (hm.open_not_mem_drop Nat.one_ne_zero) t
    have hlength := replaceAtOnceFrom_length table (m.drop 1) t
    obtain ⟨label, rfl, -, -⟩ := hm
    rw [List.cons_append] at hfind
    rw [List.cons_append, replaceAtOnce, replaceAtOnceFrom, hfind]
    cases table.lookup ('\x7b' :: (label ++ ['\x7d'])) with
    | none => exact congrArg ('\x7b' :: ·) hrest
    | some r => exact congrArg (r ++ ·) hlength
  obtain ⟨label, rfl, -, -⟩ := hm
  rw [List.append_assoc, List.cons_append, replaceAtOnce,
    replaceAtOnceFrom_append_open hmarks (Nat.zero_le _), ← List.cons_append, hhere,
    List.append_assoc]
  rfl

/-- At every place of a text at most one mark stands, so the order of a table makes no difference. -/
theorem replaceAtOnce_perm {table' : List (List Char × List Char)} (hperm : table'.Perm table)
    (hmarks : Marks table) (hkeys : (table.map (·.1)).Nodup) (s : List Char) :
    replaceAtOnce table' s = replaceAtOnce table s := by
  have hfind (s : List Char) : (table'.find? fun e => e.1.isPrefixOf s) =
      table.find? fun e => e.1.isPrefixOf s := by
    apply List.find?_eq_find?_of_perm hperm
    rintro e ⟨he, hhere⟩ e' ⟨he', hhere'⟩
    rw [hperm.mem_iff] at he he'
    obtain ⟨t, rfl⟩ := List.isPrefixOf_iff_prefix.mp hhere'
    rw [(hmarks e he).isPrefixOf_mark (hmarks e' he'), beq_iff_eq] at hhere
    exact List.inj_on_of_nodup_map hkeys he he' hhere
  -- The induction is on the text, whatever number of characters is being passed over.
  rw [replaceAtOnce, replaceAtOnce]
  generalize 0 = passing
  induction s generalizing passing with
  | nil => cases passing <;> rfl
  | cons c s ih =>
    cases passing with
    | zero =>
      rw [replaceAtOnceFrom, replaceAtOnceFrom, hfind]
      simp only [ih]
    | succ passing => exact ih passing

/-! ## §4 One mark after the other -/

theorem Marks.concat (hmarks : Marks table) (hm : IsMark m) : Marks (table ++ [(m, r)]) := by
  intro e he
  rcases List.mem_append.mp he with htable | hlast
  · exact hmarks e htable
  · rw [List.mem_singleton.mp hlast]
    exact hm

theorem lookup_concat (hnew : table.lookup m = none) : (table ++ [(m, r)]).lookup m = some r := by
  rw [List.lookup_append, hnew, List.lookup_cons_self, Option.none_or]

theorem replaceAtOnce_nil (s : List Char) : replaceAtOnce [] s = s := by
  induction s with
  | nil => rfl
  | cons c s ih => exact congrArg (c :: ·) ih

/-- A mark that does not occur may be in the table or not. -/
theorem replaceAtOnce_concat_of_absent {s : List Char} (h : occurrences m s = 0) :
    replaceAtOnce (table ++ [(m, r)]) s = replaceAtOnce table s := by
  rw [replaceAtOnce, replaceAtOnce]
  generalize 0 = passing
  induction s generalizing passing with
  | nil => cases passing <;> rfl
  | cons c s ih =>
    rw [occurrences, Nat.add_eq_zero_iff] at h
    cases passing with
    | zero =>
      -- The new entry comes last in the table, and it does not apply here.
      have hhere : m.isPrefixOf (c :: s) = false := by
        by_contra hprefix
        rw [if_pos (Bool.eq_true_of_not_eq_false hprefix)] at h
        exact absurd h.1 Nat.one_ne_zero
      rw [replaceAtOnceFrom, replaceAtOnceFrom, List.find?_append, List.find?_cons, hhere,
        List.find?_nil, Option.or_none]
      simp only [ih h.2]
    | succ passing => exact ih h.2 passing

/-- Replacing other marks takes no occurrence of a mark away. -/
theorem occurrences_le_replaceAtOnce (hmarks : Marks table) (hm : IsMark m)
    (hnew : table.lookup m = none) (s : List Char) :
    occurrences m s ≤ occurrences m (replaceAtOnce table s) := by
  induction s using hm.cut_induction with
  | absent s hs =>
    rw [hs]
    exact Nat.zero_le _
  | present x t hx ht =>
    rw [replaceAtOnce_append_mark hmarks hm, hnew, Option.getD_none, hm.occurrences_append_mark hm,
      hm.occurrences_append_mark hm, hx]
    omega

/-- **A mark replaced after others** is replaced together with them, if nothing that was put in place
brings it in. -/
theorem replace_replaceAtOnce (hmarks : Marks table) (hm : IsMark m) (hnew : table.lookup m = none)
    {s : List Char} (h : occurrences m (replaceAtOnce table s) = occurrences m s) :
    replace m r (replaceAtOnce table s) = replaceAtOnce (table ++ [(m, r)]) s := by
  have hsingle : Marks [(m, r)] := List.forall_mem_singleton.mpr hm
  have habsent {s : List Char} (hs : occurrences m s = 0) : replaceAtOnce [(m, r)] s = s := by
    rw [← List.nil_append [(m, r)], replaceAtOnce_concat_of_absent hs, replaceAtOnce_nil]
  rw [replace_eq]
  induction s using hm.cut_induction with
  | absent s hs => rw [habsent (h.trans hs), replaceAtOnce_concat_of_absent hs]
  | present x t hx ih =>
    have hle := occurrences_le_replaceAtOnce hmarks hm hnew t
    rw [replaceAtOnce_append_mark hmarks hm, hnew, Option.getD_none] at h ⊢
    rw [hm.occurrences_append_mark hm, hm.occurrences_append_mark hm, hx] at h
    -- The occurrences that were there before account for all of them.
    have hfront : occurrences m (replaceAtOnce table x) = 0 := by omega
    have hback : occurrences m (replaceAtOnce table t) = occurrences m t := by omega
    rw [replaceAtOnce_append_mark hsingle hm, replaceAtOnce_append_mark (hmarks.concat hm) hm,
      habsent hfront, ih hback, replaceAtOnce_concat_of_absent hx, lookup_concat hnew,
      List.lookup_cons_self]

/-- Characters are put in and taken away with each occurrence of a mark. -/
theorem count_replaceAtOnce_concat (hmarks : Marks table) (hm : IsMark m)
    (hnew : table.lookup m = none) (c : Char) (s : List Char) :
    (replaceAtOnce (table ++ [(m, r)]) s).count c + occurrences m s * m.count c =
      (replaceAtOnce table s).count c + occurrences m s * r.count c := by
  induction s using hm.cut_induction with
  | absent s hs => rw [replaceAtOnce_concat_of_absent hs, hs, Nat.zero_mul, Nat.zero_mul]
  | present x t hx ih =>
    rw [replaceAtOnce_append_mark (hmarks.concat hm) hm, replaceAtOnce_append_mark hmarks hm, hnew,
      lookup_concat hnew, replaceAtOnce_concat_of_absent hx, hm.occurrences_append_mark hm, hx,
      if_pos rfl]
    simp only [Option.getD_some, Option.getD_none, List.count_append, Nat.add_mul]
    omega

theorem count_replace (hm : IsMark m) (c : Char) (s : List Char) :
    (replace m r s).count c + occurrences m s * m.count c = s.count c + occurrences m s * r.count c := by
  have hnone : Marks [] := List.forall_mem_nil _
  have hcount := count_replaceAtOnce_concat (r := r) hnone hm rfl c s
  rwa [replaceAtOnce_nil, List.nil_append, ← replace_eq] at hcount

theorem occurrences_le_replace {m' : List Char} (hm : IsMark m) (hm' : IsMark m') (hne : m ≠ m')
    (s : List Char) : occurrences m s ≤ occurrences m (replace m' r s) := by
  have hnew : [(m', r)].lookup m = none := by
    rw [List.lookup_cons, beq_false_of_ne hne]
    rfl
  rw [replace_eq]
  exact occurrences_le_replaceAtOnce (List.forall_mem_singleton.mpr hm') hm hnew s

/-! ## §5 Occurrences in what is put together -/

/-- No occurrence of a part that starts in `x` reaches beyond its end. -/
def Apart (part x : List Char) : Prop :=
  ∀ t, occurrences part (x ++ t) = occurrences part x + occurrences part t

theorem Apart.append {part x y : List Char} (hx : Apart part x) (hy : Apart part y) :
    Apart part (x ++ y) := by
  intro t
  rw [List.append_assoc, hx, hy, hx, Nat.add_assoc]

theorem Apart.of_ending {part : List Char} {c : Char} (hc : c ∉ part) (hne : part ≠ [])
    (x : List Char) : Apart part (x ++ [c]) := by
  intro t
  rw [List.append_assoc, List.singleton_append, occurrences_append_cons hc hne,
    occurrences_append_cons hc hne]
  rfl

namespace IsMark

theorem occurrences_plain (hm : IsMark m) {x : List Char} (hx : '\x7b' ∉ x) :
    occurrences m x = 0 := by
  rw [← List.append_nil x, hm.occurrences_plain_append hx, occurrences]

theorem apart_plain (hm : IsMark m) {x : List Char} (hx : '\x7b' ∉ x) : Apart m x := by
  intro t
  rw [hm.occurrences_plain_append hx, hm.occurrences_plain hx, Nat.zero_add]

theorem apart_mark {m' : List Char} (hm : IsMark m) (hm' : IsMark m') : Apart m m' := by
  intro t
  have hbefore := hm.occurrences_append_mark hm' [] t
  have halone := hm.occurrences_append_mark hm' [] []
  rw [List.append_nil] at halone
  rw [List.nil_append] at hbefore halone
  rw [hbefore, halone]
  rfl

end IsMark

/-- Opening braces stand only where a mark starts. -/
inductive WellBraced : List Char → Prop where
  | nil : WellBraced []
  | plain {c : Char} {s : List Char} (hc : c ≠ '\x7b') (hs : WellBraced s) : WellBraced (c :: s)
  | mark {m s : List Char} (hm : IsMark m) (hs : WellBraced s) : WellBraced (m ++ s)

namespace WellBraced

theorem plain_append {x t : List Char} (hx : '\x7b' ∉ x) (ht : WellBraced t) :
    WellBraced (x ++ t) := by
  induction x with
  | nil => exact ht
  | cons c x ih =>
    rw [List.mem_cons, not_or] at hx
    exact .plain (Ne.symm hx.1) (ih hx.2)

theorem of_append_mark (hm : IsMark m) {x t : List Char} (h : WellBraced (x ++ m ++ t)) :
    WellBraced x ∧ WellBraced t := by
  generalize hs : x ++ m ++ t = s at h
  induction h generalizing x with
  | nil =>
    rw [List.append_assoc, List.append_eq_nil_iff, List.append_eq_nil_iff] at hs
    exact absurd hs.2.1 hm.ne_nil
  | plain hc _ ih =>
    cases x with
    | nil =>
      obtain ⟨label, rfl, -, -⟩ := hm
      exact absurd (List.head_eq_of_cons_eq hs).symm hc
    | cons d x =>
      obtain ⟨rfl, hbehind⟩ := List.cons.inj hs
      exact (ih hbehind).imp_left (.plain hc)
  | @mark m' s hm' hrest ih =>
    rw [List.append_assoc] at hs
    rcases List.append_eq_append_iff.mp hs with ⟨y, rfl, hy⟩ | ⟨y, rfl, hy⟩
    · cases x with
      | nil =>
        obtain ⟨rfl, rfl⟩ := hm.eq_of_append_eq hm' hy
        exact ⟨.nil, hrest⟩
      | cons c x =>
        cases y with
        | nil =>
          -- The first mark ends where the other one starts.
          rw [List.append_nil] at hm'
          refine ⟨?_, (@ih [] hy).2⟩
          rw [← List.append_nil (c :: x)]
          exact .mark hm' .nil
        | cons d y =>
          -- The other one would open inside of the first mark.
          obtain ⟨label, rfl, -, -⟩ := hm
          obtain ⟨rfl, -⟩ := List.cons.inj hy
          have hdrop := hm'.open_not_mem_drop (Nat.succ_ne_zero x.length)
          rw [List.drop_left' (List.length_cons ..)] at hdrop
          exact absurd List.mem_cons_self hdrop
    · exact (ih (by rw [List.append_assoc, hy])).imp_left (.mark hm')

end WellBraced

theorem apart_replaceAtOnce (hmarks : Marks table) (hm : IsMark m)
    (htable : ∀ e ∈ table, Apart m e.2) {s : List Char} (hs : WellBraced s) :
    Apart m (replaceAtOnce table s) := by
  induction hs with
  | nil =>
    intro t
    exact (Nat.zero_add _).symm
  | @plain c s hc _ ih =>
    have hc : '\x7b' ∉ [c] := fun h => hc (List.mem_singleton.mp h).symm
    rw [← List.singleton_append, replaceAtOnce_plain_append hmarks hc]
    exact (hm.apart_plain hc).append ih
  | @mark m' s hm' _ ih =>
    -- What comes in the place of a mark is from the table, or the mark itself.
    have hput : Apart m ((table.lookup m').getD m') := by
      cases hlookup : table.lookup m' with
      | none => exact hm.apart_mark hm'
      | some r =>
        obtain ⟨front, back, rfl, -⟩ := List.lookup_eq_some_iff.mp hlookup
        exact htable (m', r) (List.mem_append_right _ List.mem_cons_self)
    have hcut := replaceAtOnce_append_mark hmarks hm' [] s
    rw [List.nil_append] at hcut
    rw [hcut]
    exact hput.append ih

/-- What is put in place of one mark brings in its own occurrences of another one, and no more. -/
theorem occurrences_replaceAtOnce_concat {m' : List Char} (hmarks : Marks table) (hm : IsMark m)
    (hnew : table.lookup m = none) (hm' : IsMark m') (hne : m' ≠ m)
    (htable : ∀ e ∈ table, Apart m' e.2) (hr : Apart m' r) {s : List Char} (hs : WellBraced s) :
    occurrences m' (replaceAtOnce (table ++ [(m, r)]) s) =
      occurrences m' (replaceAtOnce table s) + occurrences m s * occurrences m' r := by
  induction s using hm.cut_induction with
  | absent s hnone => rw [replaceAtOnce_concat_of_absent hnone, hnone, Nat.zero_mul, Nat.add_zero]
  | present x t hx ih =>
    obtain ⟨hfront, hback⟩ := hs.of_append_mark hm
    have hapart : Apart m' (replaceAtOnce table x) := apart_replaceAtOnce hmarks hm' htable hfront
    rw [replaceAtOnce_append_mark (hmarks.concat hm) hm, replaceAtOnce_append_mark hmarks hm, hnew,
      lookup_concat hnew, replaceAtOnce_concat_of_absent hx, hm.occurrences_append_mark hm, hx,
      if_pos rfl, Option.getD_some, Option.getD_none, hm'.occurrences_append_mark hm, if_neg hne,
      (hapart.append hr), hapart, ih hback, Nat.add_mul]
    omega

end SnapshotAnalytics.Text
