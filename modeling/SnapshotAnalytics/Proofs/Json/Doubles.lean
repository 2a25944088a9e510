import SnapshotAnalytics.Proofs.Json.Numeral
import SnapshotAnalytics.Proofs.Number.Decimals

/-!
# Numerals of negative numbers and doubles

A negative integer is read back from its digits behind a minus sign. The text of a double always has a
fraction or an exponent, so it is never taken for an integer, and it is a well-formed literal; whether
the value of that literal is the double again is a matter of rounding and is left as an assumption.
-/

namespace SnapshotAnalytics.Json.Number

/-! ## §1 Negative integers -/

theorem readsBack_negative (below : Fin 0x8000000000000000) : (negative below).ReadsBack where
  start := ⟨'-', Nat.toDigits 10 (below + 1), rfl, Or.inl rfl⟩
  chars := by
    refine List.forall_mem_cons.mpr ⟨rfl, fun c hc => ?_⟩
    simp [Scan.isNumeralChar, isDigit_toDigits _ c hc]
  value := by
    have hend : ∀ c ∈ ([] : List Char).head?, c.isDigit = false := fun _ hc => nomatch hc
    have hread := read?_signed true (isDigit_toDigits (below + 1)) (isWholePart_toDigits _) hend
    have hliteral : Literal.read? (negative below).text =
        some ⟨true, Nat.toDigits 10 (below + 1), none, none⟩ := by
      rwa [List.append_nil] at hread
    have hbelow : below.val < 0x8000000000000000 := below.isLt
    have hsmall : ¬ 0x10000000000000000 ≤ below.val + 1 := by omega
    have hrange : below.val + 1 ≠ 0 ∧ below.val + 1 ≤ 0x8000000000000000 := by omega
    rw [Token.ofNumeral?, hliteral, Option.map_some]
    simp [Literal.value?, natOfDigits_toDigits, hsmall, hrange]

/-! ## §2 What stands behind the whole digits of a double -/

/-- The power of ten of a literal: its mark, a sign and digits. -/
def IsPower (s : List Char) : Prop :=
  ∃ sign digits, s = 'e' :: sign :: digits ∧ (sign = '-' ∨ sign = '+') ∧ digits ≠ [] ∧
    ∀ c ∈ digits, c.isDigit = true

/-- What tells a double from an integer: a fraction, a power of ten, or both. -/
inductive IsMark : List Char → Prop where
  | fraction {digits : List Char} (hne : digits ≠ []) (hdigits : ∀ c ∈ digits, c.isDigit = true) :
    IsMark ('.' :: digits)
  | power {s : List Char} (hpower : IsPower s) : IsMark s
  | both {digits : List Char} (hne : digits ≠ []) (hdigits : ∀ c ∈ digits, c.isDigit = true)
    {s : List Char} (hpower : IsPower s) : IsMark ('.' :: (digits ++ s))

theorem IsPower.readExponent? {s : List Char} (h : IsPower s) :
    ∃ e, Binary64.readExponent? s = some e := by
  obtain ⟨sign, digits, rfl, hsign, hne, hdigits⟩ := h
  have hall : digits.all Char.isDigit = true := List.all_eq_true.mpr hdigits
  have hempty : digits.isEmpty = false := List.isEmpty_eq_false_iff.mpr hne
  rcases hsign with rfl | rfl <;>
    simp [Binary64.readExponent?, hall, hempty]

theorem IsPower.chars {s : List Char} (h : IsPower s) : ∀ c ∈ s, Scan.isNumeralChar c = true := by
  obtain ⟨sign, digits, rfl, hsign, _, hdigits⟩ := h
  refine List.forall_mem_cons.mpr ⟨rfl, List.forall_mem_cons.mpr ⟨?_, fun c hc => ?_⟩⟩
  · rcases hsign with rfl | rfl <;> rfl
  · simp [Scan.isNumeralChar, hdigits c hc]

namespace IsMark

variable {s : List Char}

/-- Digits end where a mark starts. -/
theorem head? (h : IsMark s) : ∀ c ∈ s.head?, c.isDigit = false := by
  cases h with
  | fraction _ _ => simp
  | power hpower =>
    obtain ⟨sign, digits, rfl, _⟩ := hpower
    simp
  | both _ _ _ => simp

theorem chars (h : IsMark s) : ∀ c ∈ s, Scan.isNumeralChar c = true := by
  cases h with
  | fraction _ hdigits =>
    exact List.forall_mem_cons.mpr ⟨rfl, fun c hc => by simp [Scan.isNumeralChar, hdigits c hc]⟩
  | power hpower => exact hpower.chars
  | both _ hdigits hpower =>
    refine List.forall_mem_cons.mpr ⟨rfl, List.forall_mem_append.mpr ⟨fun c hc => ?_, hpower.chars⟩⟩
    simp [Scan.isNumeralChar, hdigits c hc]

/-- A marked literal is well formed, and it is no integer. -/
theorem readTail? (h : IsMark s) (negative : Bool) (whole : List Char) :
    ∃ l, Number.readTail? negative whole s = some l ∧
      (l.fraction.isSome || l.exponent.isSome) = true := by
  -- Behind the whole part there is a fraction, a power, or one behind the other.
  cases h with
  | @fraction digits hne hdigits =>
    have hend : ∀ c ∈ ([] : List Char).head?, c.isDigit = false := fun _ hc => nomatch hc
    have htake := takeWhile_digits hdigits hend
    have hdrop := dropWhile_digits hdigits hend
    rw [List.append_nil] at htake hdrop
    refine ⟨⟨negative, whole, some digits, none⟩, ?_, rfl⟩
    simp [Number.readTail?, htake, hdrop, hne]
  | power hpower =>
    obtain ⟨e, he⟩ := hpower.readExponent?
    obtain ⟨sign, digits, rfl, _⟩ := hpower
    refine ⟨⟨negative, whole, none, some e⟩, ?_, rfl⟩
    simp [Number.readTail?, he]
  | @both digits hne hdigits power hpower =>
    have hhead := (IsMark.power hpower).head?
    have htake := takeWhile_digits hdigits hhead
    have hdrop := dropWhile_digits hdigits hhead
    obtain ⟨e, he⟩ := hpower.readExponent?
    obtain ⟨sign, exponent, rfl, _⟩ := hpower
    refine ⟨⟨negative, whole, some digits, some e⟩, ?_, rfl⟩
    simp [Number.readTail?, htake, hdrop, hne, he]

end IsMark

/-! ## §3 Decimals -/

theorem isWholePart_cons {first : Char} (hfirst : first ≠ '0') (more : List Char) :
    isWholePart (first :: more) = true := by
  unfold isWholePart
  split
  · contradiction
  · rfl
  · rename_i hcons
    cases hcons
    exact bne_iff_ne.mpr hfirst

theorem isDigit_replicate_zero (n : Nat) : ∀ c ∈ List.replicate n '0', c.isDigit = true := by
  intro c hc
  rw [List.eq_of_mem_replicate hc]
  rfl

/-- Digits and what marks them as a double. -/
def IsMarkedDecimal (s : List Char) : Prop :=
  ∃ whole mark, s = whole ++ mark ∧ (∀ c ∈ whole, c.isDigit = true) ∧ isWholePart whole = true ∧
    IsMark mark

theorem isMarkedDecimal_positional {s : Scientific} (hs : s.Proper) :
    IsMarkedDecimal (s.positional ['.', '0']) := by
  obtain ⟨first, more, hdigits, hfirst⟩ := hs.leading
  have hall := hs.digits
  unfold Scientific.positional
  simp only
  split
  case isTrue =>
    -- A single zero stands before the point.
    refine ⟨['0'], _, rfl, List.forall_mem_singleton.mpr rfl, rfl, .fraction ?_ ?_⟩
    · simp [hdigits]
    · exact List.forall_mem_append.mpr ⟨isDigit_replicate_zero _, hall⟩
  case isFalse hexponent =>
    split
    case isTrue hlength =>
      -- All digits stand before the point, with zeros behind them.
      refine ⟨s.digits ++ List.replicate _ '0', ['.', '0'], rfl,
        List.forall_mem_append.mpr ⟨hall, isDigit_replicate_zero _⟩, ?_,
        .fraction (List.cons_ne_nil _ _) (List.forall_mem_singleton.mpr rfl)⟩
      rcases hfirst with hfirst | rfl
      · rw [hdigits, List.cons_append]
        exact isWholePart_cons hfirst _
      · rfl
    case isFalse hlength =>
      -- The point stands among the digits.
      refine ⟨s.digits.take (s.exponent + 1).toNat, '.' :: s.digits.drop (s.exponent + 1).toNat, rfl,
        fun c hc => hall c (List.mem_of_mem_take hc), ?_, .fraction ?_ ?_⟩
      · have hfirst' : first ≠ '0' := by
          rcases hfirst with hfirst | rfl
          · exact hfirst
          · exact absurd (by decide) hlength
        obtain ⟨n, hn⟩ : ∃ n, (s.exponent + 1).toNat = n + 1 :=
          ⟨(s.exponent + 1).toNat - 1, by omega⟩
        rw [hn, hdigits, List.take_succ_cons]
        exact isWholePart_cons hfirst' _
      · rw [Ne, List.drop_eq_nil_iff]
        exact hlength
      · exact fun c hc => hall c (List.mem_of_mem_drop hc)

theorem isMarkedDecimal_exponential {s : Scientific} (hs : s.Proper) :
    IsMarkedDecimal s.exponential := by
  obtain ⟨first, more, hdigits, -⟩ := hs.leading
  obtain ⟨hfirst, hmore⟩ := List.forall_mem_cons.mp (hdigits ▸ hs.digits)
  have hpower : IsPower ('e' :: (if s.exponent < 0 then '-' else '+') ::
      Nat.toDigits 10 s.exponent.natAbs) := by
    refine ⟨_, _, rfl, ?_, Nat.toDigits_ne_nil, isDigit_toDigits _⟩
    split
    · exact Or.inl rfl
    · exact Or.inr rfl
  have hwhole : isWholePart [first] = true := by
    by_cases hzero : first = '0'
    · rw [hzero]
      rfl
    · exact isWholePart_cons hzero []
  unfold Scientific.exponential
  rw [hdigits]
  -- A single digit has no fraction, so only the power marks it as no integer.
  cases more with
  | nil => exact ⟨[first], _, rfl, List.forall_mem_singleton.mpr hfirst, hwhole, .power hpower⟩
  | cons second more =>
    exact ⟨[first], _, rfl, List.forall_mem_singleton.mpr hfirst, hwhole,
      .both (List.cons_ne_nil _ _) hmore hpower⟩

/-! ## §4 Doubles -/

/-- The text of a double is a sign and a marked decimal. -/
theorem doubleText_eq (x : Binary64) :
    ∃ s, doubleText x = sign x.isNegative ++ s ∧ IsMarkedDecimal s := by
  have hproper := Binary64.proper_shortest .toEven x
  refine ⟨_, rfl, ?_⟩
  split
  · exact isMarkedDecimal_positional hproper
  · exact isMarkedDecimal_exponential hproper

/-- Nothing but digits, signs, a point and a mark for the exponent stands in the text of a number. -/
theorem isNumeralChar_text (n : Number) : ∀ c ∈ n.text, Scan.isNumeralChar c = true := by
  cases n with
  | natural n => exact (readsBack_natural n).chars
  | negative below => exact (readsBack_negative below).chars
  | double x finite =>
    obtain ⟨s, hs, whole, mark, rfl, hwhole, -, hmark⟩ := doubleText_eq x
    rw [text, hs]
    refine List.forall_mem_append.mpr ⟨?_, List.forall_mem_append.mpr ⟨fun c hc => ?_, hmark.chars⟩⟩
    · exact List.all_eq_true.mp (by cases x.isNegative <;> decide)
    · simp [Scan.isNumeralChar, hwhole c hc]

/-- What is assumed of a double: the value of the literal that its text is read as is that double. Of
integers nothing is assumed. -/
def KeepsValue : Number → Prop
  | double x finite =>
    ∀ l, Literal.read? (doubleText x) = some l → l.double? = some (double x finite)
  | _ => True

instance (n : Number) : Decidable n.KeepsValue :=
  match n with
  | natural _ => .isTrue trivial
  | negative _ => .isTrue trivial
  | double x finite => inferInstanceAs
    (Decidable (∀ l ∈ Literal.read? (doubleText x), l.double? = some (double x finite)))

/-- **Numbers read back**, as numbers of the same kind. -/
theorem KeepsValue.readsBack {n : Number} (h : n.KeepsValue) : n.ReadsBack := by
  cases n with
  | natural n => exact readsBack_natural n
  | negative below => exact readsBack_negative below
  | double x finite =>
    obtain ⟨s, hs, whole, mark, rfl, hwhole, hpart, hmark⟩ := doubleText_eq x
    obtain ⟨l, hl, hkind⟩ := hmark.readTail? x.isNegative whole
    have hread : Literal.read? (doubleText x) = some l := by
      rw [hs, read?_signed _ hwhole hpart hmark.head?, hl]
    have hvalue : l.value? = some (double x finite) := by
      rw [← h l hread, Literal.value?, hkind]
      rfl
    -- The text begins as a numeral does, by its sign or by a digit, and is read as the same double.
    refine ⟨?_, isNumeralChar_text _, ?_⟩
    · obtain ⟨first, more, rfl⟩ : ∃ first more, whole = first :: more :=
        List.exists_cons_of_ne_nil fun hnil => by rw [hnil] at hpart; cases hpart
      rw [text, hs]
      cases x.isNegative with
      | true => exact ⟨'-', _, rfl, Or.inl rfl⟩
      | false => exact ⟨first, _, rfl, Or.inr (hwhole first List.mem_cons_self)⟩
    · rw [Token.ofNumeral?, text, hread, Option.map_some, hvalue]

end SnapshotAnalytics.Json.Number
