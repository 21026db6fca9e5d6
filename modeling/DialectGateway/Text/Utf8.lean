/-
# Text.Utf8 — characters and their bytes

Encoding is core's. Decoding is a machine that takes one byte at a time and
never fails: a byte that cannot continue the character begun ends a *fault*,
and a fault is the longest run of bytes that begins a character without
finishing one (or a single byte that begins none). `read` yields one symbol per
character or fault; `decodeLossy` shows each fault as U+FFFD. The machine is a
left fold, so text may be decoded piece by piece wherever no character is open,
and what was encoded is read back (`read_encode`).
`takeWithin` is the cut that never splits a character.
-/

set_option autoImplicit false

namespace DialectGateway.Text

/-- One character, or `none` for bytes that form no character. -/
abbrev Symbol := Option Char

namespace Utf8

def encode (cs : List Char) : List UInt8 := cs.flatMap String.utf8EncodeChar

def encodeText (s : String) : List UInt8 := encode s.toList

/-- The number of bytes a text takes. -/
def size (cs : List Char) : Nat := cs.foldr (fun c n => c.utf8Size + n) 0

/-- Where the machine stands: between characters, or inside one with `owed`
bytes missing, the next of them between `low` and `high`, and `code` read. -/
inductive Stand where
  | between
  | inside (owed : Nat) (low high : UInt8) (code : Nat)
  deriving DecidableEq, Repr

structure Reading where
  stand : Stand
  /-- The symbols read, last first. -/
  symbols : List Symbol
  deriving Repr

def Reading.start : Reading := ⟨.between, []⟩

/-- The first byte of a character, or a fault of its own. -/
def Reading.lead (symbols : List Symbol) (b : UInt8) : Reading :=
  if b < 0x80 then ⟨.between, some (Char.ofNat b.toNat) :: symbols⟩
  else if b < 0xC2 then ⟨.between, none :: symbols⟩
  else if b < 0xE0 then ⟨.inside 1 0x80 0xBF (b.toNat - 0xC0), symbols⟩
  else if b == 0xE0 then ⟨.inside 2 0xA0 0xBF 0, symbols⟩
  else if b == 0xED then ⟨.inside 2 0x80 0x9F 13, symbols⟩
  else if b < 0xF0 then ⟨.inside 2 0x80 0xBF (b.toNat - 0xE0), symbols⟩
  else if b == 0xF0 then ⟨.inside 3 0x90 0xBF 0, symbols⟩
  else if b < 0xF4 then ⟨.inside 3 0x80 0xBF (b.toNat - 0xF0), symbols⟩
  else if b == 0xF4 then ⟨.inside 3 0x80 0x8F 4, symbols⟩
  else ⟨.between, none :: symbols⟩

def Reading.step (r : Reading) (b : UInt8) : Reading :=
  match r.stand with
  | .between => Reading.lead r.symbols b
  | .inside owed low high code =>
    if low ≤ b ∧ b ≤ high then
      let code := code * 64 + (b.toNat - 0x80)
      if owed ≤ 1 then ⟨.between, some (Char.ofNat code) :: r.symbols⟩
      else ⟨.inside (owed - 1) 0x80 0xBF code, r.symbols⟩
    else Reading.lead (none :: r.symbols) b

/-- Bytes that end inside a character are one fault. -/
def Reading.finish (r : Reading) : List Symbol :=
  match r.stand with
  | .between => r.symbols.reverse
  | .inside .. => (none :: r.symbols).reverse

def read (bytes : List UInt8) : List Symbol :=
  (bytes.foldl Reading.step .start).finish

def decodeLossy (bytes : List UInt8) : List Char :=
  (read bytes).map (·.getD '\uFFFD')

/-- The text of the bytes, if every byte belongs to a character. -/
def decode? (bytes : List UInt8) : Option (List Char) := (read bytes).mapM id

/-- The longest prefix of whole characters that takes at most `limit` bytes. -/
def takeWithin : Nat → List Char → List Char
  | _, [] => []
  | limit, c :: cs =>
    if c.utf8Size ≤ limit then c :: takeWithin (limit - c.utf8Size) cs else []

theorem takeWithin_prefix (limit : Nat) (cs : List Char) : takeWithin limit cs <+: cs := by
  induction cs generalizing limit with
  | nil => simp [takeWithin]
  | cons c cs ih =>
    by_cases fits : c.utf8Size ≤ limit
    · simpa [takeWithin, fits] using ih _
    · simp [takeWithin, fits]

theorem size_takeWithin_le (limit : Nat) (cs : List Char) :
    size (takeWithin limit cs) ≤ limit := by
  induction cs generalizing limit with
  | nil => simp [takeWithin, size]
  | cons c cs ih =>
    by_cases fits : c.utf8Size ≤ limit
    · have rest := ih (limit - c.utf8Size)
      simp only [size] at rest
      simp only [takeWithin, fits, if_true, size, List.foldr_cons]
      omega
    · simp [takeWithin, fits, size]

/-! ## Reading in parts -/

theorem lead_symbols (symbols : List Symbol) (b : UInt8) :
    Reading.lead symbols b =
      ⟨(Reading.lead [] b).stand, (Reading.lead [] b).symbols ++ symbols⟩ := by
  let before (r : Reading) : Reading := ⟨r.stand, r.symbols ++ symbols⟩
  change _ = before (Reading.lead [] b)
  simp only [Reading.lead, apply_ite before]
  rfl

theorem step_symbols (stand : Stand) (symbols : List Symbol) (b : UInt8) :
    Reading.step ⟨stand, symbols⟩ b =
      ⟨(Reading.step ⟨stand, []⟩ b).stand, (Reading.step ⟨stand, []⟩ b).symbols ++ symbols⟩ := by
  cases stand with
  | between => exact lead_symbols symbols b
  | inside owed low high code =>
    simp only [Reading.step]
    split
    · split <;> rfl
    · rw [lead_symbols (none :: symbols), lead_symbols [none], List.append_assoc]
      rfl

/-- What has been read stays as it is. -/
theorem foldl_step_symbols (bytes : List UInt8) (stand : Stand) (symbols : List Symbol) :
    bytes.foldl Reading.step ⟨stand, symbols⟩ =
      ⟨(bytes.foldl Reading.step ⟨stand, []⟩).stand,
        (bytes.foldl Reading.step ⟨stand, []⟩).symbols ++ symbols⟩ := by
  induction bytes generalizing stand symbols with
  | nil => rfl
  | cons b rest ih =>
    rw [List.foldl_cons, List.foldl_cons, step_symbols, ih]
    rw [ih _ (Reading.step ⟨stand, []⟩ b).symbols, List.append_assoc]

/-- Inside a character only bytes from 0x80 on are owed. -/
def Stand.Continues : Stand → Prop
  | .between => True
  | .inside _ low _ _ => 0x80 ≤ low

theorem continues_lead (symbols : List Symbol) (b : UInt8) :
    (Reading.lead symbols b).stand.Continues := by
  simp only [Reading.lead, apply_ite Reading.stand, apply_ite Stand.Continues]
  simp [Stand.Continues]

theorem continues_step (r : Reading) (b : UInt8) : (r.step b).stand.Continues := by
  rw [Reading.step]
  split
  · exact continues_lead _ b
  · split
    · simp only
      split
      · trivial
      · exact Nat.le_refl 128
    · exact continues_lead _ b

theorem continues_foldl (bytes : List UInt8) (r : Reading) (begun : r.stand.Continues) :
    (bytes.foldl Reading.step r).stand.Continues := by
  induction bytes generalizing r with
  | nil => exact begun
  | cons b rest ih => exact ih _ (continues_step r b)

/-- A line feed ends what was begun before it and is a character by itself. -/
theorem step_lineFeed (r : Reading) (begun : r.stand.Continues) :
    r.step 10 = ⟨.between, some '\n' :: r.finish.reverse⟩ := by
  obtain ⟨stand, symbols⟩ := r
  cases stand with
  | between =>
    simp only [Reading.step, Reading.finish, List.reverse_reverse]
    rfl
  | inside owed low high code =>
    have alone : ¬ low ≤ 10 := by
      intro within
      exact absurd (UInt8.le_trans begun within) (by decide)
    simp only [Reading.step, alone, false_and, if_false, Reading.finish, List.reverse_reverse]
    rfl

theorem finish_append (stand : Stand) (symbols past : List Symbol) :
    Reading.finish ⟨stand, symbols ++ past⟩ =
      past.reverse ++ Reading.finish ⟨stand, symbols⟩ := by
  cases stand with
  | between => exact List.reverse_append
  | inside owed low high code => exact @List.reverse_append _ (none :: symbols) past

/-- **Text may be read in parts wherever a line feed stands**, faults included. -/
theorem read_append_lineFeed (before after : List UInt8) :
    read (before ++ 10 :: after) = read before ++ some '\n' :: read after := by
  have begun := continues_foldl before .start trivial
  rw [read, List.foldl_append, List.foldl_cons, step_lineFeed _ begun, foldl_step_symbols]
  rw [finish_append, List.reverse_cons, List.reverse_reverse, List.append_assoc]
  rfl

theorem decodeLossy_append_lineFeed (before after : List UInt8) :
    decodeLossy (before ++ 10 :: after) =
      decodeLossy before ++ '\n' :: decodeLossy after := by
  rw [decodeLossy, read_append_lineFeed, List.map_append, List.map_cons]
  rfl

/-! ## Reading what was encoded -/

section
variable {b : UInt8} {n : Nat} (symbols : List Symbol)

theorem step_leadOne (byte : b.toNat = n) (small : n < 128) :
    Reading.step ⟨.between, symbols⟩ b = ⟨.between, some (Char.ofNat n) :: symbols⟩ := by
  have low : b < 0x80 := by
    rw [UInt8.lt_iff_toNat_lt, byte]
    exact small
  simp only [Reading.step, Reading.lead, if_pos low, byte]

theorem step_leadTwo (byte : b.toNat = n + 192) (least : 2 ≤ n) (most : n < 32) :
    Reading.step ⟨.between, symbols⟩ b = ⟨.inside 1 0x80 0xBF n, symbols⟩ := by
  simp only [Reading.step, Reading.lead, UInt8.lt_iff_toNat_lt, byte, UInt8.reduceToNat]
  rw [if_neg (by omega), if_neg (by omega), if_pos (by omega), Nat.add_sub_cancel]

/-- The second of three bytes is narrowed by the first: 0xE0 would begin characters that take fewer
bytes, and 0xED the gap that holds no characters. -/
theorem step_leadThree (byte : b.toNat = n + 224) (most : n < 16) :
    Reading.step ⟨.between, symbols⟩ b =
      ⟨.inside 2 (if n = 0 then 0xA0 else 0x80) (if n = 13 then 0x9F else 0xBF) n, symbols⟩ := by
  simp only [Reading.step, Reading.lead, UInt8.lt_iff_toNat_lt, beq_iff_eq, ← UInt8.toNat_inj, byte,
    UInt8.reduceToNat]
  rw [if_neg (by omega), if_neg (by omega), if_neg (by omega)]
  by_cases first : n = 0
  · simp [first]
  · by_cases hole : n = 13
    · simp [hole]
    · rw [if_neg (by omega), if_neg (by omega), if_pos (by omega), if_neg first, if_neg hole,
        Nat.add_sub_cancel]

/-- Likewise for four bytes: past 0xF4 0x8F there are no characters. -/
theorem step_leadFour (byte : b.toNat = n + 240) (most : n ≤ 4) :
    Reading.step ⟨.between, symbols⟩ b =
      ⟨.inside 3 (if n = 0 then 0x90 else 0x80) (if n = 4 then 0x8F else 0xBF) n, symbols⟩ := by
  simp only [Reading.step, Reading.lead, UInt8.lt_iff_toNat_lt, beq_iff_eq, ← UInt8.toNat_inj, byte,
    UInt8.reduceToNat]
  rw [if_neg (by omega), if_neg (by omega), if_neg (by omega), if_neg (by omega), if_neg (by omega),
    if_neg (by omega)]
  by_cases first : n = 0
  · simp [first]
  · by_cases last : n = 4
    · simp [last]
    · rw [if_neg (by omega), if_pos (by omega), if_neg first, if_neg last, Nat.add_sub_cancel]

/-- A byte that continues a character adds six bits to what was read of it. -/
theorem step_inside {owed code : Nat} {low high : UInt8} (byte : b.toNat = n + 128)
    (least : low.toNat ≤ n + 128) (most : n + 128 ≤ high.toNat) :
    Reading.step ⟨.inside owed low high code, symbols⟩ b =
      if owed ≤ 1 then ⟨.between, some (Char.ofNat (code * 64 + n)) :: symbols⟩
      else ⟨.inside (owed - 1) 0x80 0xBF (code * 64 + n), symbols⟩ := by
  have within : low ≤ b ∧ b ≤ high := by
    rw [UInt8.le_iff_toNat_le, UInt8.le_iff_toNat_le, byte]
    exact ⟨least, most⟩
  simp only [Reading.step, if_pos within, byte, Nat.add_sub_cancel]

/-- Where the byte before narrows nothing, six bits of any value are taken. -/
theorem step_insideOpen {owed code : Nat} (byte : b.toNat = n + 128) (small : n < 64) :
    Reading.step ⟨.inside owed 0x80 0xBF code, symbols⟩ b =
      if owed ≤ 1 then ⟨.between, some (Char.ofNat (code * 64 + n)) :: symbols⟩
      else ⟨.inside (owed - 1) 0x80 0xBF (code * 64 + n), symbols⟩ :=
  step_inside symbols byte (Nat.le_add_left 128 n)
    (Nat.add_le_add_right (Nat.le_of_lt_succ small) 128)

end

theorem toNat_byte {n : Nat} (small : n < 256) : (UInt8.ofNat n).toNat = n := by
  rw [UInt8.toNat_ofNat', Nat.mod_eq_of_lt small]

/-- The bytes of a character are read as the character. -/
theorem foldl_step_encodeChar (c : Char) (symbols : List Symbol) :
    (String.utf8EncodeChar c).foldl Reading.step ⟨.between, symbols⟩ =
      ⟨.between, some c :: symbols⟩ := by
  obtain ⟨v, code⟩ : ∃ v, c.val.toNat = v := ⟨_, rfl⟩
  have valid : v < 55296 ∨ 57343 < v ∧ v < 1114112 := code ▸ c.valid
  have same : Char.ofNat v = c := code ▸ c.ofNat_toNat
  rw [String.utf8EncodeChar, code]
  by_cases one : v ≤ 127
  · simp only [if_pos one, List.foldl_cons, List.foldl_nil]
    rw [step_leadOne symbols (toNat_byte (by omega)) (by omega), same]
  by_cases two : v ≤ 2047
  · simp only [if_neg one, if_pos two, List.foldl_cons, List.foldl_nil]
    rw [step_leadTwo symbols (toNat_byte (by omega)) (by omega) (by omega),
      step_insideOpen symbols (toNat_byte (by omega)) (by omega), if_pos (by omega)]
    rw [show v / 64 % 32 * 64 + v % 64 = v by omega, same]
  by_cases three : v ≤ 65535
  · simp only [if_neg one, if_neg two, if_pos three, List.foldl_cons, List.foldl_nil]
    have least : (if v / 4096 % 16 = 0 then 0xA0 else 0x80 : UInt8).toNat ≤ v / 64 % 64 + 128 := by
      split <;> simp only [UInt8.reduceToNat] <;> omega
    have most : v / 64 % 64 + 128 ≤ (if v / 4096 % 16 = 13 then 0x9F else 0xBF : UInt8).toNat := by
      split <;> simp only [UInt8.reduceToNat] <;> omega
    rw [step_leadThree symbols (toNat_byte (by omega)) (by omega),
      step_inside symbols (toNat_byte (by omega)) least most, if_neg (by omega),
      step_insideOpen symbols (toNat_byte (by omega)) (by omega), if_pos (by omega)]
    rw [show (v / 4096 % 16 * 64 + v / 64 % 64) * 64 + v % 64 = v by omega, same]
  · simp only [if_neg one, if_neg two, if_neg three, List.foldl_cons, List.foldl_nil]
    have least :
        (if v / 262144 % 8 = 0 then 0x90 else 0x80 : UInt8).toNat ≤ v / 4096 % 64 + 128 := by
      split <;> simp only [UInt8.reduceToNat] <;> omega
    have most :
        v / 4096 % 64 + 128 ≤ (if v / 262144 % 8 = 4 then 0x8F else 0xBF : UInt8).toNat := by
      split <;> simp only [UInt8.reduceToNat] <;> omega
    rw [step_leadFour symbols (toNat_byte (by omega)) (by omega),
      step_inside symbols (toNat_byte (by omega)) least most, if_neg (by omega),
      step_insideOpen symbols (toNat_byte (by omega)) (by omega), if_neg (by omega),
      step_insideOpen symbols (toNat_byte (by omega)) (by omega), if_pos (by omega)]
    rw [show ((v / 262144 % 8 * 64 + v / 4096 % 64) * 64 + v / 64 % 64) * 64 + v % 64 = v by omega,
      same]

/-- **What was encoded is read back.** -/
theorem read_encode (cs : List Char) : read (encode cs) = cs.map some := by
  have run (symbols : List Symbol) : (encode cs).foldl Reading.step ⟨.between, symbols⟩ =
      ⟨.between, (cs.map some).reverse ++ symbols⟩ := by
    induction cs generalizing symbols with
    | nil => rfl
    | cons c rest ih =>
      rw [encode, List.flatMap_cons, List.foldl_append, foldl_step_encodeChar, ← encode, ih,
        List.map_cons, List.reverse_cons, List.append_assoc]
      rfl
  rw [read, Reading.start, run, List.append_nil, Reading.finish, List.reverse_reverse]

end Utf8
end DialectGateway.Text
