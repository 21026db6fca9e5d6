/-
# Proofs.Text.Excerpts — what is left of texts that are cut short

`Longest` says what a cut should keep, by sizes alone: whole characters from the
beginning, within the limit, and nothing longer is. `Excerpt` is a text that fits, or its
longest beginning with a note behind it; since no character takes more than four bytes, a
beginning that could not be longer leaves less than four bytes unused.

The cut itself works on bytes: it looks backwards from the limit for a place where a
character begins, and a slice at any other place would fail. `Stops` is that the search
ends at the longest beginning and the slice there succeeds, which holds of every text and
every limit (`stops_takeWithin`). `excerpts_keep_characters` has all of this for the two
excerpts that the gateway makes, of error texts and of bodies, whose bytes need not be
text at all and may grow when they are read.
-/
import DialectGateway.Text.Excerpt

set_option autoImplicit false

namespace DialectGateway.Text

open Utf8 (before? boundaryUpTo encode decodeLossy isBoundary size takeWithin)

/-- The longest beginning of whole characters within a limit. -/
structure Longest (limit : Nat) (cs front : List Char) : Prop where
  begins : front <+: cs
  within : size front ≤ limit
  longest : ∀ other, other <+: cs → size other ≤ limit → other <+: front

/-- A text that fits, or what is kept of one that does not. -/
inductive Excerpt (limit : Nat) (note cs : List Char) : List Char → Prop where
  | whole (fits : size cs ≤ limit) : Excerpt limit note cs cs
  | cut {front : List Char} (beyond : limit < size cs) (longest : Longest limit cs front)
      (close : limit < size front + 4) : Excerpt limit note cs (front ++ note)

/-- The backward search ends where the front does, has passed no boundary on its way, and the slice
there is the front. -/
structure Stops (limit : Nat) (cs front : List Char) : Prop where
  place : boundaryUpTo (encode cs) limit = size front
  passed : ∀ i, size front < i → i ≤ limit → isBoundary (encode cs) i = false
  close : limit < size cs → limit < size front + 4
  slice : before? (encode cs) (boundaryUpTo (encode cs) limit) = some front

theorem longest_takeWithin (limit : Nat) (cs : List Char) :
    Longest limit cs (takeWithin limit cs) where
  begins := Utf8.takeWithin_prefix limit cs
  within := Utf8.size_takeWithin_le limit cs
  longest _ begins within := Utf8.prefix_takeWithin begins within

/-- The character behind the front would not have fitted, and it has at most four bytes. -/
theorem Longest.close {limit : Nat} {cs front : List Char} (kept : Longest limit cs front)
    (beyond : limit < size cs) : limit < size front + 4 := by
  obtain ⟨rest, rfl⟩ := kept.begins
  cases rest with
  | nil =>
      rw [List.append_nil] at beyond
      exact absurd kept.within (Nat.not_le.2 beyond)
  | cons c rest =>
      have further : front ++ [c] <+: front ++ c :: rest :=
        (List.prefix_append_right_inj front).2 (List.prefix_append [c] rest)
      have width : size (front ++ [c]) = size front + c.utf8Size := Utf8.size_append front [c]
      have four := c.utf8Size_le_four
      refine Nat.lt_of_not_le fun room => ?_
      have longer := kept.longest _ further (by omega)
      have shorter := longer.length_le
      rw [List.length_append, List.length_singleton] at shorter
      omega

theorem stops_takeWithin (limit : Nat) (cs : List Char) :
    Stops limit cs (takeWithin limit cs) where
  place := Utf8.boundaryUpTo_encode cs limit
  passed i past within := by
    refine Bool.eq_false_iff.2 fun boundary => ?_
    have reached := Utf8.le_boundaryUpTo boundary within
    rw [Utf8.boundaryUpTo_encode] at reached
    omega
  close := (longest_takeWithin limit cs).close
  slice := Utf8.before?_boundaryUpTo cs limit

theorem excerpt_abridge (limit : Nat) (note cs : List Char) :
    Excerpt limit note cs (abridge limit note cs) := by
  rcases Nat.lt_or_ge limit (size cs) with beyond | fits
  · rw [abridge_of_lt_size beyond]
    exact .cut beyond (longest_takeWithin limit cs) ((longest_takeWithin limit cs).close beyond)
  · rw [abridge_of_size_le fits]
    exact .whole fits

/-- **A text that is cut short keeps whole characters**, as many as fit, wherever the limit falls;
the note on a body has the number of its bytes as they came. The search for the cut always ends at
such a place, so the slice never fails. -/
theorem excerpts_keep_characters :
    (∀ cs, Excerpt 500 "...".toList cs (errorExcerpt cs)) ∧
    (∀ bytes, Excerpt 2048 ("... [truncated, ".toList ++ Decimal.digits bytes.length ++
      " bytes total]".toList) (decodeLossy bytes) (bodyExcerpt bytes)) ∧
    ∀ limit cs, ∃ front, Longest limit cs front ∧ Stops limit cs front := by
  refine ⟨fun cs => excerpt_abridge 500 _ cs, fun bytes => excerpt_abridge 2048 _ _, ?_⟩
  intro limit cs
  exact ⟨takeWithin limit cs, longest_takeWithin limit cs, stops_takeWithin limit cs⟩

/-- The limit falls inside the sign, and what does not fit is left out whole. -/
example : abridge 4 ['…'] "ab€c".toList = "ab…".toList := by decide +kernel

end DialectGateway.Text
