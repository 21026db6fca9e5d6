/-
# Text.Boundary — places between characters

A place in the bytes of a text is a boundary if a character begins there or the text
ends. The last boundary up to a limit is looked for backwards, one byte at a time, and
the text is cut there. In what was encoded the boundaries are the ends of its beginnings
(`isBoundary_encode`), so the cut is the longest beginning within the limit
(`before?_boundaryUpTo`).
-/
import DialectGateway.Text.Utf8

set_option autoImplicit false

namespace DialectGateway.Text.Utf8

/-- Whether a byte goes on with a character that another byte began. -/
def continues (b : UInt8) : Bool := 0x80 ≤ b && b < 0xC0

def isBoundary (bytes : List UInt8) (place : Nat) : Bool :=
  match bytes[place]? with
  | some b => !continues b
  | none => place == bytes.length

/-- The last boundary up to a place, or the beginning. -/
def boundaryUpTo (bytes : List UInt8) : Nat → Nat
  | 0 => 0
  | place + 1 => if isBoundary bytes (place + 1) then place + 1 else boundaryUpTo bytes place

/-- The text up to a place; none if a character is split there. -/
def before? (bytes : List UInt8) (place : Nat) : Option (List Char) :=
  if isBoundary bytes place then decode? (bytes.take place) else none

/-! ## Sizes -/

theorem size_cons (c : Char) (cs : List Char) : size (c :: cs) = c.utf8Size + size cs := rfl

theorem size_append (front rest : List Char) : size (front ++ rest) = size front + size rest := by
  induction front with
  | nil => exact (Nat.zero_add _).symm
  | cons c front ih => rw [List.cons_append, size_cons, size_cons, ih, Nat.add_assoc]

theorem size_le_size {front cs : List Char} (begins : front <+: cs) : size front ≤ size cs := by
  obtain ⟨rest, rfl⟩ := begins
  rw [size_append]
  exact Nat.le_add_right _ _

theorem length_encode (cs : List Char) : (encode cs).length = size cs := by
  induction cs with
  | nil => rfl
  | cons c cs ih =>
      rw [encode, List.flatMap_cons, List.length_append, String.length_utf8EncodeChar, ← encode, ih,
        size_cons]

theorem encode_append (front rest : List Char) :
    encode (front ++ rest) = encode front ++ encode rest := List.flatMap_append

theorem decode?_encode (cs : List Char) : decode? (encode cs) = some cs := by
  rw [decode?, read_encode]
  induction cs with
  | nil => rfl
  | cons c cs ih => simp [ih]

/-! ## Boundaries -/

theorem continues_ofNat {n : Nat} (small : n < 256) :
    continues (UInt8.ofNat n) = decide (128 ≤ n ∧ n < 192) := by
  simp [continues, UInt8.le_iff_toNat_le, UInt8.lt_iff_toNat_lt, toNat_byte small]

/-- Of the bytes of a character only the first does not go on with it. -/
theorem encodeChar_shape (c : Char) : ∃ first more, String.utf8EncodeChar c = first :: more ∧
    continues first = false ∧ ∀ b ∈ more, continues b = true := by
  obtain ⟨v, code⟩ : ∃ v, c.val.toNat = v := ⟨_, rfl⟩
  have first {n : Nat} (small : n < 256) (lead : n < 128 ∨ 192 ≤ n) :
      continues (UInt8.ofNat n) = false := by
    rw [continues_ofNat small, decide_eq_false_iff_not]
    omega
  have later (ns : List Nat) :
      ∀ b ∈ ns.map fun n => UInt8.ofNat (n % 64 + 128), continues b = true := by
    intro b member
    obtain ⟨n, -, rfl⟩ := List.mem_map.1 member
    rw [continues_ofNat (by omega), decide_eq_true_iff]
    omega
  rw [String.utf8EncodeChar, code]
  by_cases one : v ≤ 127
  · simp only [if_pos one]
    exact ⟨_, _, rfl, first (by omega) (by omega), later []⟩
  by_cases two : v ≤ 2047
  · simp only [if_neg one, if_pos two]
    exact ⟨_, _, rfl, first (by omega) (by omega), later [v]⟩
  by_cases three : v ≤ 65535
  · simp only [if_neg one, if_neg two, if_pos three]
    exact ⟨_, _, rfl, first (by omega) (by omega), later [v / 64, v]⟩
  · simp only [if_neg one, if_neg two, if_neg three]
    exact ⟨_, _, rfl, first (by omega) (by omega), later [v / 4096, v / 64, v]⟩

theorem isBoundary_zero (cs : List Char) : isBoundary (encode cs) 0 = true := by
  cases cs with
  | nil => rfl
  | cons c cs =>
      obtain ⟨first, more, shape, begins, -⟩ := encodeChar_shape c
      simp [isBoundary, encode, shape, begins]

/-- Inside the first character there is no boundary, and past it they are those of the rest. -/
theorem isBoundary_cons {c : Char} {cs : List Char} {place : Nat} (positive : 0 < place) :
    isBoundary (encode (c :: cs)) place = true ↔
      c.utf8Size ≤ place ∧ isBoundary (encode cs) (place - c.utf8Size) = true := by
  have bytes : encode (c :: cs) = String.utf8EncodeChar c ++ encode cs := List.flatMap_cons
  have width : (String.utf8EncodeChar c).length = c.utf8Size := String.length_utf8EncodeChar c
  rcases Nat.lt_or_ge place c.utf8Size with inside | past
  · obtain ⟨first, more, shape, -, goesOn⟩ := encodeChar_shape c
    obtain ⟨before, rfl⟩ : ∃ before, place = before + 1 := ⟨place - 1, by omega⟩
    have room : before < more.length := by
      rw [shape, List.length_cons] at width
      omega
    have byte : (encode (c :: cs))[before + 1]? = some more[before] := by
      rw [bytes, shape, List.cons_append, List.getElem?_cons_succ,
        List.getElem?_append_left room, List.getElem?_eq_getElem room]
    have split : ¬ c.utf8Size ≤ before + 1 := by omega
    simp [isBoundary, byte, goesOn _ (List.getElem_mem room), split]
  · have byte : (encode (c :: cs))[place]? = (encode cs)[place - c.utf8Size]? := by
      rw [bytes, List.getElem?_append_right (by omega), width]
    have same : (place == (encode (c :: cs)).length) =
        (place - c.utf8Size == (encode cs).length) := by
      rw [bytes, List.length_append, width, Bool.eq_iff_iff, beq_iff_eq, beq_iff_eq]
      omega
    simp only [isBoundary, byte, same, past, true_and]

/-- **A boundary is where a beginning of the text ends.** -/
theorem isBoundary_encode {cs : List Char} {place : Nat} :
    isBoundary (encode cs) place = true ↔ ∃ front, front <+: cs ∧ size front = place := by
  induction cs generalizing place with
  | nil =>
      have beginning : isBoundary (encode []) place = (place == 0) := by simp [isBoundary, encode]
      simp only [List.prefix_nil, exists_eq_left]
      rw [beginning, beq_iff_eq]
      exact eq_comm
  | cons c cs ih =>
      rcases Nat.eq_zero_or_pos place with rfl | positive
      · exact iff_of_true (isBoundary_zero _) ⟨[], List.nil_prefix, rfl⟩
      rw [isBoundary_cons positive, ih]
      constructor
      · rintro ⟨past, front, begins, ends⟩
        refine ⟨c :: front, List.cons_prefix_cons.2 ⟨rfl, begins⟩, ?_⟩
        rw [size_cons, ends]
        omega
      · rintro ⟨front, begins, rfl⟩
        rcases front with _ | ⟨d, front⟩
        · exact absurd positive (Nat.lt_irrefl 0)
        obtain ⟨rfl, further⟩ := List.cons_prefix_cons.1 begins
        rw [size_cons]
        exact ⟨Nat.le_add_right _ _, front, further, (Nat.add_sub_cancel_left _ _).symm⟩

/-! ## The cut -/

theorem boundaryUpTo_le (bytes : List UInt8) (limit : Nat) : boundaryUpTo bytes limit ≤ limit := by
  induction limit with
  | zero => exact Nat.le_refl 0
  | succ limit ih =>
      rw [boundaryUpTo]
      split
      · exact Nat.le_refl _
      · omega

theorem isBoundary_boundaryUpTo {bytes : List UInt8} (begins : isBoundary bytes 0 = true)
    (limit : Nat) : isBoundary bytes (boundaryUpTo bytes limit) = true := by
  induction limit with
  | zero => exact begins
  | succ limit ih =>
      rw [boundaryUpTo]
      split
      · assumption
      · exact ih

/-- The search passes no boundary. -/
theorem le_boundaryUpTo {bytes : List UInt8} {place limit : Nat}
    (boundary : isBoundary bytes place = true) (within : place ≤ limit) :
    place ≤ boundaryUpTo bytes limit := by
  induction limit with
  | zero => exact within
  | succ limit ih =>
      rw [boundaryUpTo]
      split
      · exact within
      · next none_ =>
          rcases Nat.lt_or_eq_of_le within with below | rfl
          · exact ih (by omega)
          · exact absurd boundary none_

/-- What fits is a beginning of the longest that fits. -/
theorem prefix_takeWithin {front cs : List Char} (begins : front <+: cs) {limit : Nat}
    (within : size front ≤ limit) : front <+: takeWithin limit cs := by
  induction cs generalizing front limit with
  | nil => exact begins
  | cons c cs ih =>
      rcases front with _ | ⟨d, front⟩
      · exact List.nil_prefix
      obtain ⟨rfl, further⟩ := List.cons_prefix_cons.1 begins
      rw [size_cons] at within
      rw [takeWithin, if_pos (by omega)]
      exact List.cons_prefix_cons.2 ⟨rfl, ih further (by omega)⟩

/-- The search stops at the end of the longest beginning within the limit. -/
theorem boundaryUpTo_encode (cs : List Char) (limit : Nat) :
    boundaryUpTo (encode cs) limit = size (takeWithin limit cs) := by
  apply Nat.le_antisymm
  · obtain ⟨front, begins, ends⟩ :=
      isBoundary_encode.1 (isBoundary_boundaryUpTo (isBoundary_zero cs) limit)
    rw [← ends]
    exact size_le_size (prefix_takeWithin begins (ends ▸ boundaryUpTo_le _ _))
  · exact le_boundaryUpTo (isBoundary_encode.2 ⟨_, takeWithin_prefix limit cs, rfl⟩)
      (size_takeWithin_le limit cs)

theorem before?_encode {front cs : List Char} (begins : front <+: cs) :
    before? (encode cs) (size front) = some front := by
  have boundary := isBoundary_encode.2 ⟨front, begins, rfl⟩
  obtain ⟨rest, rfl⟩ := begins
  rw [before?, if_pos boundary, encode_append, ← length_encode, List.take_left, decode?_encode]

/-- **A cut at the last boundary splits no character.** -/
theorem before?_boundaryUpTo (cs : List Char) (limit : Nat) :
    before? (encode cs) (boundaryUpTo (encode cs) limit) = some (takeWithin limit cs) := by
  have begins := takeWithin_prefix limit cs
  rw [boundaryUpTo_encode, before?_encode begins]

theorem isSome_before? (cs : List Char) (limit : Nat) :
    (before? (encode cs) (boundaryUpTo (encode cs) limit)).isSome = true := by
  rw [before?_boundaryUpTo, Option.isSome_some]

end DialectGateway.Text.Utf8
