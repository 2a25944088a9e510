import SnapshotAnalytics.Json.Draft
import SnapshotAnalytics.Proofs.Json.Tokens

/-!
# Reading a rendered value

The tokens of a value are put together to the draft of the value, as long as its containers are not
nested deeper than a reader allows. With the tokens read back from the text, rendering loses nothing:
two values with the same text are the same draft.
-/

namespace SnapshotAnalytics.Json

/-! ## §1 Nesting -/

mutual

/-- How many containers stand inside each other, at most. -/
def depth : Json → Nat
  | array items => depthOfItems items + 1
  | object members => depthOfMembers members + 1
  | _ => 0

/-- The nesting inside some items. -/
def depthOfItems : List Json → Nat
  | [] => 0
  | item :: items => max (depth item) (depthOfItems items)

/-- The nesting inside some members. -/
def depthOfMembers : List (String × Json) → Nat
  | [] => 0
  | (_, value) :: members => max (depth value) (depthOfMembers members)

end

/-! ## §2 Putting tokens together -/

namespace Draft.State

/-- A token that the machine takes. -/
theorem run_cons {state next : State} {token : Token} (h : state.step token = some next)
    (tokens : List Token) : state.run (token :: tokens) = next.run tokens := by
  rw [run, h]

/-- Members of which each has a key are kept. -/
theorem keyed?_map_some (members : List (String × Draft)) :
    keyed? (members.map (Prod.map some id)) = some members := by
  induction members with
  | nil => rfl
  | cons member members ih =>
    rw [List.map_cons, Prod.map, keyed?, ih]
    rfl

/-- An array that is not too deep is closed to a draft. -/
theorem closeArray_eq {stack : List Frame} (h : stack.length < depthLimit) (items : List Draft) :
    closeArray items stack = put (.array items.reverse) stack := by
  rw [closeArray, if_pos h]

/-- An object that is not too deep is closed to a draft. -/
theorem closeObject_eq {stack : List Frame} (h : stack.length < depthLimit)
    (members : List (String × Draft)) :
    closeObject (members.map (Prod.map some id)).reverse stack = put (.object members) stack := by
  rw [closeObject, List.reverse_reverse, keyed?_map_some]
  simp only [if_pos h]

end Draft.State

open Draft Draft.State

mutual

/-- Where a value is expected, the tokens of a value put its draft there. -/
theorem run_tokens (j : Json) (stack : List Frame) (orEnd : Bool) (rest : List Token)
    (hdepth : stack.length + j.depth ≤ depthLimit) :
    State.run ⟨stack, .value orEnd⟩ (j.tokens ++ rest) = (put (ofValue j) stack).run rest := by
  -- A container puts a frame on the stack and takes a level of nesting away, so the bound on both
  -- together is what every call hands on.
  match j, hdepth with
  | null, _ =>
    exact run_cons rfl rest
  | bool b, _ =>
    exact run_cons rfl rest
  | number n, _ =>
    exact run_cons rfl rest
  | text s, _ =>
    exact run_cons rfl rest
  | array [], hdepth =>
    have hstack : stack.length < depthLimit := by
      simp only [depth, depthOfItems] at hdepth
      omega
    rw [tokens, List.cons_append, run_cons rfl, List.cons_append, run_cons rfl,
      closeArray_eq hstack]
    rfl
  | array (item :: items), hdepth =>
    simp only [depth, depthOfItems] at hdepth
    have hstack : stack.length < depthLimit := by omega
    have hitem : (Frame.array [] :: stack).length + item.depth ≤ depthLimit := by
      rw [List.length_cons]
      omega
    have hitems : stack.length + 1 + depthOfItems items ≤ depthLimit := by omega
    rw [tokens, List.cons_append, List.append_assoc, List.cons_append, List.append_assoc,
      run_cons rfl, run_tokens item _ _ _ hitem, put, List.singleton_append,
      run_tokensOfItems items stack _ rest hitems, closeArray_eq hstack, List.reverse_append,
      List.reverse_reverse]
    rfl
  | object [], hdepth =>
    have hstack : stack.length < depthLimit := by
      simp only [depth, depthOfMembers] at hdepth
      omega
    rw [tokens, List.cons_append, run_cons rfl, List.cons_append, run_cons rfl]
    exact congrArg (State.run · rest) (closeObject_eq hstack [])
  | object ((key, value) :: members), hdepth =>
    simp only [depth, depthOfMembers] at hdepth
    have hstack : stack.length < depthLimit := by omega
    have hvalue : (Frame.object [] (some key) :: stack).length + value.depth ≤ depthLimit := by
      rw [List.length_cons]
      omega
    have hmembers : stack.length + 1 + depthOfMembers members ≤ depthLimit := by omega
    have hclose := closeObject_eq hstack ((key, ofValue value) :: ofMembers members)
    rw [List.map_cons, List.reverse_cons] at hclose
    simp only [tokens, List.cons_append, List.append_assoc, List.nil_append]
    rw [run_cons rfl, run_cons rfl, run_cons rfl, run_tokens value _ _ _ hvalue, put,
      run_tokensOfMembers members stack _ _ rest hmembers]
    exact congrArg (State.run · rest) hclose

/-- Behind an item, the tokens of further items up to the end of the array close it. -/
theorem run_tokensOfItems (items : List Json) (stack : List Frame) (done : List Draft)
    (rest : List Token) (hdepth : stack.length + 1 + depthOfItems items ≤ depthLimit) :
    State.run ⟨.array done :: stack, .separator⟩ (tokensOfItems items ++ .closeArray :: rest) =
      (closeArray ((ofItems items).reverse ++ done) stack).run rest := by
  match items, hdepth with
  | [], _ =>
    exact run_cons rfl rest
  | item :: items, hdepth =>
    rw [depthOfItems] at hdepth
    have hitem : (Frame.array done :: stack).length + item.depth ≤ depthLimit := by
      rw [List.length_cons]
      omega
    have hitems : stack.length + 1 + depthOfItems items ≤ depthLimit := by omega
    simp only [tokensOfItems, List.cons_append, List.append_assoc]
    rw [run_cons rfl, run_tokens item _ _ _ hitem, put,
      run_tokensOfItems items stack _ rest hitems, ofItems, List.reverse_cons, List.append_assoc]
    rfl

/-- Behind a member, the tokens of further members up to the end of the object close it. -/
theorem run_tokensOfMembers (members : List (String × Json)) (stack : List Frame)
    (done : List (Option String × Draft)) (key : Option String) (rest : List Token)
    (hdepth : stack.length + 1 + depthOfMembers members ≤ depthLimit) :
    State.run ⟨.object done key :: stack, .separator⟩
        (tokensOfMembers members ++ .closeObject :: rest) =
      (closeObject (((ofMembers members).map (Prod.map some id)).reverse ++ done) stack).run
        rest := by
  match members, hdepth with
  | [], _ =>
    exact run_cons rfl rest
  | (key, value) :: members, hdepth =>
    rw [depthOfMembers] at hdepth
    have hvalue : (Frame.object done (some key) :: stack).length + value.depth ≤ depthLimit := by
      rw [List.length_cons]
      omega
    have hmembers : stack.length + 1 + depthOfMembers members ≤ depthLimit := by omega
    simp only [tokensOfMembers, List.cons_append, List.append_assoc]
    rw [run_cons rfl, run_cons rfl, run_cons rfl, run_tokens value _ _ _ hvalue, put,
      run_tokensOfMembers members stack _ _ rest hmembers, ofMembers, List.map_cons,
      List.reverse_cons, List.append_assoc]
    rfl

end

/-! ## §3 Readable values -/

/-- A value that can be read back from its text: its numbers can, and its containers are nested to the
given number of levels at most. -/
structure Readable (levels : Nat) (j : Json) : Prop where
  numbers : EveryNumber Number.ReadsBack j
  depth : j.depth ≤ levels

namespace Readable

variable {levels : Nat}

theorem mono {levels' : Nat} {j : Json} (hj : Readable levels j) (h : levels ≤ levels') :
    Readable levels' j :=
  ⟨hj.numbers, hj.depth.trans h⟩

theorem text (s : String) : Readable levels (.text s) :=
  ⟨trivial, Nat.zero_le _⟩

theorem bool (b : Bool) : Readable levels (.bool b) :=
  ⟨trivial, Nat.zero_le _⟩

theorem ofNat (n : Nat) : Readable levels (.ofNat n) :=
  ⟨Number.readsBack_natural _, Nat.zero_le _⟩

theorem array {items : List Json} (h : ∀ j ∈ items, Readable levels j) :
    Readable (levels + 1) (.array items) := by
  have hitems : EveryNumberOfItems Number.ReadsBack items ∧ depthOfItems items ≤ levels := by
    induction items with
    | nil => exact ⟨trivial, Nat.zero_le _⟩
    | cons j items ih =>
      obtain ⟨hj, hitems⟩ := List.forall_mem_cons.mp h
      exact ⟨⟨hj.numbers, (ih hitems).1⟩, Nat.max_le.mpr ⟨hj.depth, (ih hitems).2⟩⟩
  exact ⟨hitems.1, Nat.succ_le_succ hitems.2⟩

theorem object {members : List (String × Json)} (h : ∀ m ∈ members, Readable levels m.2) :
    Readable (levels + 1) (.object members) := by
  have hmembers :
      EveryNumberOfMembers Number.ReadsBack members ∧ depthOfMembers members ≤ levels := by
    induction members with
    | nil => exact ⟨trivial, Nat.zero_le _⟩
    | cons m members ih =>
      obtain ⟨hm, hmembers⟩ := List.forall_mem_cons.mp h
      exact ⟨⟨hm.numbers, (ih hmembers).1⟩, Nat.max_le.mpr ⟨hm.depth, (ih hmembers).2⟩⟩
  exact ⟨hmembers.1, Nat.succ_le_succ hmembers.2⟩

/-- The members of a readable object are readable. -/
theorem of_mem {members : List (String × Json)} (h : Readable (levels + 1) (.object members)) :
    ∀ m ∈ members, Readable levels m.2 := by
  have hmembers :
      EveryNumberOfMembers Number.ReadsBack members ∧ depthOfMembers members ≤ levels :=
    ⟨h.numbers, Nat.le_of_succ_le_succ h.depth⟩
  clear h
  induction members with
  | nil => exact fun _ hm => nomatch hm
  | cons m members ih =>
    obtain ⟨⟨hnumber, hnumbers⟩, hdepth⟩ := hmembers
    obtain ⟨hm, hrest⟩ := Nat.max_le.mp hdepth
    exact List.forall_mem_cons.mpr ⟨⟨hnumber, hm⟩, ih ⟨hnumbers, hrest⟩⟩

/-- A member that may be left out is readable if its value is. -/
theorem member?_map {α : Type} {write : α → Json} {key : String} {value : Option α}
    (h : ∀ x, (write x).Readable levels) :
    ∀ m ∈ Json.member? key (value.map write), m.2.Readable levels := by
  intro m hm
  cases value with
  | none => cases hm
  | some x =>
    rw [List.mem_singleton.mp hm]
    exact h x

end Readable

/-! ## §4 Texts -/

/-- **Round trip**: the text of a readable value is read as the draft of the value. -/
theorem ofText?_render {levels : Nat} {j : Json} (hj : j.Readable levels)
    (hlevels : levels ≤ depthLimit) : Draft.ofText? j.render = some (ofValue j) := by
  have htokens : Draft.ofTokens? j.tokens = some (ofValue j) := by
    have hdepth : ([] : List Frame).length + j.depth ≤ depthLimit := by
      rw [List.length_nil, Nat.zero_add]
      exact hj.depth.trans hlevels
    have hrun := run_tokens j [] false [] hdepth
    rw [List.append_nil] at hrun
    rw [ofTokens?, State.initial, hrun]
    rfl
  rw [Draft.ofText?, ofChars?, render, String.toList_ofList, tokens?_chars hj.numbers]
  exact htokens

/-- A value that a reader reads back from its draft is determined by the text of that draft. -/
theorem eq_of_render_eq {α : Type} {toJson : α → Json} {ofDraft? : Draft → Option α} {levels : Nat}
    (hlevels : levels ≤ depthLimit) {x y : α} (hx : (toJson x).Readable levels)
    (hy : (toJson y).Readable levels) (hreadx : ofDraft? (ofValue (toJson x)) = some x)
    (hready : ofDraft? (ofValue (toJson y)) = some y)
    (h : (toJson x).render = (toJson y).render) : x = y := by
  have hdraft : ofValue (toJson x) = ofValue (toJson y) := by
    have hread := ofText?_render hx hlevels
    rw [h, ofText?_render hy hlevels] at hread
    exact (Option.some.inj hread).symm
  rw [hdraft, hready] at hreadx
  exact (Option.some.inj hreadx).symm

end SnapshotAnalytics.Json
