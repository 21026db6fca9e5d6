/-
# Proofs.Access.Admission — who is let in, told from the tokens that requests present

`Presents` says which token a request presents, without any of the functions that
look for one: two headers may offer a token, a value may be cut off by blanks, be
unreadable or come second, and the key header goes first. `presented?_eq_some` is
that the request's token is found exactly so.

`Guarded` then says what a gate has to do with it, for every route at once: nothing
but the token counts; the figures are for the operator; clients are let in by one of
their keys or by the operator's; a key that can stand in a header at all does let its
holder in, in either header; and who presents nothing may ask only where no client
key is set. `admits_guarded` is that the gateway is guarded in this way, whatever its
settings and its digest. Only the converse, that a token which is let in *is* one of
the keys, needs digests that tell texts apart.
-/
import DialectGateway.Server.Serve

set_option autoImplicit false

namespace DialectGateway.Access

open Server (Arrived Route Setup)
open Text (isBlank trimmed)

/-! ## What a request presents -/

/-- The first value of a name. -/
def First (headers : Headers) (name value : String) : Prop :=
  ∃ before after, headers = before ++ ⟨name, value⟩ :: after ∧ ∀ h ∈ before, h.name ≠ name

def Readable (value : String) : Prop := ∀ c ∈ value.toList, isReadable c = true

/-- A text with no blank at its ends. -/
def Bare (text : String) : Prop :=
  ∀ c, text.toList.head? = some c ∨ text.toList.getLast? = some c → isBlank c = false

/-- A value holds a token with nothing but blanks around it. -/
structure Holds (value token : String) : Prop where
  some_ : token ≠ ""
  bare : Bare token
  around : ∃ left right, value.toList = left ++ token.toList ++ right ∧
    (∀ c ∈ left, isBlank c = true) ∧ ∀ c ∈ right, isBlank c = true

/-- The first value of a name can be read, and it holds a token behind a lead. -/
def Offers (headers : Headers) (name lead token : String) : Prop :=
  ∃ rest, First headers name (lead ++ rest) ∧ Readable (lead ++ rest) ∧ Holds rest token

/-- The key header offers the token, or it offers none and bearer credentials do. -/
inductive Presents (headers : Headers) (token : String) : Prop where
  | key (offer : Offers headers "x-api-key" "" token)
  | bearer (without : ∀ other, ¬ Offers headers "x-api-key" "" other)
      (offer : Offers headers "authorization" "Bearer " token)

/-! ## Looking for the token -/

/-- What is left of a value is the token that it holds. -/
theorem substance?_eq_some {value token : String} :
    substance? value = some token ↔ Holds value token := by
  have found : substance? value = some token ↔ trimmed value ≠ "" ∧ trimmed value = token := by
    simp [substance?]
  rw [found]
  constructor
  · rintro ⟨some_, rfl⟩
    refine ⟨some_, ?_, ?_⟩
    · intro c place
      rw [trimmed, String.toList_ofList] at place
      rcases place with first | last
      · exact Text.isBlank_of_head?_trim first
      · exact Text.isBlank_of_getLast?_trim last
    · rw [trimmed, String.toList_ofList]
      exact Text.trim_around _
  · rintro ⟨some_, bare, left, right, split, before, after⟩
    have cut : trimmed value = token := by
      rw [trimmed, split, Text.trim_padded before after (by simpa using some_) bare,
        String.ofList_toList]
    exact ⟨cut ▸ some_, cut⟩

theorem readable?_eq_some {headers : Headers} {name value : String} :
    readable? headers name = some value ↔ First headers name value ∧ Readable value := by
  have first : (headers.find? (·.name == name)).map (·.value) = some value ↔
      First headers name value := by
    simp only [Option.map_eq_some_iff, List.find?_eq_some_iff_append, First]
    constructor
    · rintro ⟨⟨found, _⟩, ⟨named, before, after, split, others⟩, rfl⟩
      refine ⟨before, after, ?_, ?_⟩
      · simpa [← beq_iff_eq.1 named] using split
      · simpa using others
    · rintro ⟨before, after, split, others⟩
      exact ⟨⟨name, value⟩, ⟨by simp, before, after, split, by simpa using others⟩, rfl⟩
  rw [readable?, Option.filter_eq_some_iff, first, List.all_eq_true]
  rfl

theorem bearer?_eq_some {value rest : String} :
    bearer? value = some rest ↔ value = "Bearer " ++ rest := by
  simp only [bearer?, Option.map_eq_some_iff, Text.after?_eq_some]
  constructor
  · rintro ⟨cs, split, rfl⟩
    rw [← String.ofList_toList (s := value), split, String.ofList_append]
    rfl
  · rintro rfl
    exact ⟨rest.toList, String.toList_append, String.ofList_toList⟩

/-- Each header is looked into as its offer says. -/
theorem offer_iff (headers : Headers) (name token : String) {lead : String}
    {behind? : String → Option String}
    (behind : ∀ {value rest}, behind? value = some rest ↔ value = lead ++ rest) :
    ((readable? headers name).bind behind?).bind substance? = some token ↔
      Offers headers name lead token := by
  simp only [Option.bind_eq_some_iff, readable?_eq_some, behind, substance?_eq_some, Offers]
  constructor
  · rintro ⟨rest, ⟨_, ⟨first, readable⟩, rfl⟩, holds⟩
    exact ⟨rest, first, readable, holds⟩
  · rintro ⟨rest, first, readable, holds⟩
    exact ⟨rest, ⟨_, ⟨first, readable⟩, rfl⟩, holds⟩

/-- The token of a request is what it presents. -/
theorem presented?_eq_some {headers : Headers} {token : String} :
    presented? headers = some token ↔ Presents headers token := by
  have whole {value rest : String} : some value = some rest ↔ value = "" ++ rest := by simp
  have key (token : String) : (readable? headers "x-api-key").bind substance? = some token ↔
      Offers headers "x-api-key" "" token := by
    rw [← offer_iff headers "x-api-key" token whole, Option.bind_fun_some]
  have bearer := offer_iff headers "authorization" token bearer?_eq_some
  rw [presented?, Option.or_eq_some_iff, bearer]
  constructor
  · rintro (found | ⟨without, offer⟩)
    · exact .key ((key token).1 found)
    · refine .bearer (fun other offered => ?_) offer
      simp [(key other).2 offered] at without
  · rintro (offer | ⟨without, offer⟩)
    · exact .inl ((key token).2 offer)
    · refine .inr ⟨Option.eq_none_iff_forall_ne_some.2 fun other found => ?_, offer⟩
      exact without other ((key other).1 found)

/-- Requests that present the same are told apart by no look at their tokens. -/
theorem presented?_congr {headers others : Headers}
    (same : ∀ token, Presents headers token ↔ Presents others token) :
    presented? headers = presented? others := by
  refine Option.ext fun token => ?_
  rw [presented?_eq_some, presented?_eq_some, same]

/-- A request presents one token at most. -/
theorem Presents.unique {headers : Headers} {token other : String}
    (one : Presents headers token) (two : Presents headers other) : token = other := by
  have same := (presented?_eq_some.2 one).symm.trans (presented?_eq_some.2 two)
  exact Option.some_inj.1 same

theorem presented?_eq_none {headers : Headers} (without : ∀ token, ¬ Presents headers token) :
    presented? headers = none :=
  Option.eq_none_iff_forall_ne_some.2 fun token found => without token (presented?_eq_some.1 found)

/-! ## Keys in headers -/

/-- A key that can stand in a header as it is. -/
structure Presentable (key : String) : Prop where
  some_ : key ≠ ""
  readable : Readable key
  bare : Bare key

/-- A key stands in one of the two headers, by itself. -/
inductive Shows (headers : Headers) (key : String) : Prop where
  | key (first : First headers "x-api-key" key)
  | bearer (alone : ∀ h ∈ headers, h.name ≠ "x-api-key")
      (first : First headers "authorization" ("Bearer " ++ key))

theorem Presentable.holds {key : String} (presentable : Presentable key) : Holds key key :=
  ⟨presentable.some_, presentable.bare, [], [], by simp, by simp, by simp⟩

theorem Presentable.presents {key : String} (presentable : Presentable key) {headers : Headers}
    (shows : Shows headers key) : Presents headers key := by
  cases shows with
  | key first =>
    refine .key ⟨key, ?_, ?_, presentable.holds⟩
    · simpa using first
    · simpa using presentable.readable
  | bearer alone first =>
    refine .bearer ?_ ⟨key, first, ?_, presentable.holds⟩
    · rintro other ⟨rest, ⟨before, after, rfl, -⟩, -, -⟩
      exact alone ⟨"x-api-key", "" ++ rest⟩ (by simp) rfl
    · have readable : "Bearer ".toList.all isReadable = true := by decide +kernel
      intro c member
      rw [String.toList_append, List.mem_append] at member
      rcases member with lead | own
      · exact List.all_eq_true.1 readable c lead
      · exact presentable.readable c own

/-! ## The gate -/

namespace Gate

variable {D : Type} [DecidableEq D] {digest : String → D} {s : Settings.Access} {headers : Headers}

theorem admitsOperator_iff :
    (ofSettings digest s).admitsOperator ((presented? headers).map digest) = true ↔
      ∃ key token, s.adminKey = some key ∧ Presents headers token ∧ digest token = digest key := by
  simp only [admitsOperator, ofSettings, Option.any_map, Option.any_eq_true, presented?_eq_some,
    beq_iff_eq, Option.map_eq_some_iff]
  constructor
  · rintro ⟨token, presents, key, set, same⟩
    exact ⟨key, token, set, presents, same.symm⟩
  · rintro ⟨key, token, set, presents, same⟩
    exact ⟨token, presents, key, set, same.symm⟩

/-- Where client keys are set, a client shows one of them or the operator's. -/
theorem admitsClient_iff (closed : s.keys ≠ []) :
    (ofSettings digest s).admitsClient ((presented? headers).map digest) = true ↔
      ∃ key token, (key ∈ s.keys ∨ s.adminKey = some key) ∧ Presents headers token ∧
        digest token = digest key := by
  have known (token : String) :
      (decide (digest token ∈ (ofSettings digest s).clients) ||
        (ofSettings digest s).operator == some (digest token)) = true ↔
        ∃ key, (key ∈ s.keys ∨ s.adminKey = some key) ∧ digest token = digest key := by
    simp only [ofSettings, Bool.or_eq_true, decide_eq_true_eq, List.mem_map, beq_iff_eq,
      Option.map_eq_some_iff]
    constructor
    · rintro (⟨key, member, same⟩ | ⟨key, set, same⟩)
      · exact ⟨key, .inl member, same.symm⟩
      · exact ⟨key, .inr set, same.symm⟩
    · rintro ⟨key, member | set, same⟩
      · exact .inl ⟨key, member, same.symm⟩
      · exact .inr ⟨key, set, same.symm⟩
  have some_ : (ofSettings digest s).clients.isEmpty = false := by
    simpa [ofSettings] using closed
  rw [admitsClient, some_, Bool.false_or, Option.any_map, Option.any_eq_true]
  simp only [presented?_eq_some, known]
  constructor
  · rintro ⟨token, presents, key, set, same⟩
    exact ⟨key, token, set, presents, same⟩
  · rintro ⟨key, token, set, presents, same⟩
    exact ⟨token, presents, key, set, same⟩

theorem admitsClient_open (open_ : s.keys = []) (token : Option D) :
    (ofSettings digest s).admitsClient token = true := by
  simp [admitsClient, ofSettings, open_]

end Gate

/-! ## What the gateway lets in -/

/-- What a gate lets in that is set with these keys and knows them by their digests. -/
structure Guarded {D : Type} (digest : String → D) (s : Settings.Access)
    (admits : Route → Arrived → Bool) : Prop where
  /-- Two requests that present the same token, or none, are decided alike everywhere. -/
  token_only : ∀ r a b, (∀ token, Presents a.headers token ↔ Presents b.headers token) →
    admits r a = admits r b
  /-- Who may look may ask. -/
  operator_asks : ∀ page dialect a, admits (.figure page) a = true →
    admits (.generation dialect) a = true
  /-- The figures are for the operator's key alone, and for nobody where there is none. -/
  figures : ∀ page a, admits (.figure page) a = true ↔ ∃ key token, s.adminKey = some key ∧
    Presents a.headers token ∧ digest token = digest key
  /-- Where client keys are set, one of them or the operator's is needed to ask. -/
  closed : s.keys ≠ [] → ∀ dialect a, admits (.generation dialect) a = true ↔
    ∃ key token, (key ∈ s.keys ∨ s.adminKey = some key) ∧ Presents a.headers token ∧
      digest token = digest key
  /-- Every key that a header can hold lets its holder ask. -/
  key_asks : ∀ key, key ∈ s.keys ∨ s.adminKey = some key → Presentable key → ∀ dialect a,
    Shows a.headers key → admits (.generation dialect) a = true
  /-- The operator's key, if a header can hold it, lets the operator look. -/
  key_looks : ∀ key, s.adminKey = some key → Presentable key → ∀ page a, Shows a.headers key →
    admits (.figure page) a = true
  /-- Who presents nothing may never look, and may ask only where no client key is set. -/
  nothing : ∀ a, (∀ token, ¬ Presents a.headers token) →
    (∀ page, admits (.figure page) a = false) ∧
      ∀ dialect, admits (.generation dialect) a = true ↔ s.keys = []
  /-- Where digests tell texts apart, a token that is let in is itself a key. -/
  exact_ : Function.Injective digest →
    (∀ page a, admits (.figure page) a = true ↔
      ∃ key, s.adminKey = some key ∧ Presents a.headers key) ∧
    (s.keys ≠ [] → ∀ dialect a, admits (.generation dialect) a = true ↔
      ∃ key, (key ∈ s.keys ∨ s.adminKey = some key) ∧ Presents a.headers key)

/-- The gateway is guarded by its keys. -/
theorem admits_guarded {D : Type} [DecidableEq D] (digest : String → D) (platform : String)
    (s : Settings) : Guarded digest s.access (Setup.ofSettings digest platform s).admits where
  token_only r a b same := by
    simp only [Setup.admits, Setup.ofSettings, presented?_congr same]
  operator_asks _ _ _ looks := Gate.admitsClient_of_admitsOperator looks
  figures _ _ := Gate.admitsOperator_iff
  closed set _ _ := Gate.admitsClient_iff set
  key_asks key set presentable dialect a shows := by
    by_cases open_ : s.access.keys = []
    · exact Gate.admitsClient_open open_ _
    · exact (Gate.admitsClient_iff open_).2 ⟨key, key, set, presentable.presents shows, rfl⟩
  key_looks key set presentable page a shows :=
    Gate.admitsOperator_iff.2 ⟨key, key, set, presentable.presents shows, rfl⟩
  nothing a without := by
    have none_ := presented?_eq_none without
    refine ⟨fun page => ?_, fun dialect => ?_⟩
    · simp [Setup.admits, none_, Gate.admitsOperator]
    · simp [Setup.admits, Setup.ofSettings, none_, Gate.admitsClient, Gate.ofSettings]
  exact_ apart := by
    refine ⟨fun page a => ?_, fun set dialect a => ?_⟩
    · refine Gate.admitsOperator_iff.trans ?_
      simp only [apart.eq_iff, exists_eq_right_right]
    · refine (Gate.admitsClient_iff set).trans ?_
      simp only [apart.eq_iff, exists_eq_right_right]

/-- A blank key header leaves it to the credentials. What they hold lets a client ask, and does
not let it look. -/
theorem admits_guarded_blank :
    let access : Settings.Access := { keys := ["sk-1", "sk-2"], adminKey := some "adm" }
    let setup := Setup.ofSettings id "local" { access }
    let asked : Arrived :=
      { method := "GET", path := "/"
        headers := [⟨"x-api-key", " "⟩, ⟨"authorization", "Bearer  sk-2"⟩] }
    setup.admits (.generation .chat) asked = true ∧
      ¬ setup.admits (.figure .overview) asked = true := by
  intro access setup asked
  have guarded : Guarded id access setup.admits := admits_guarded id "local" { access }
  have presents : Presents asked.headers "sk-2" := presented?_eq_some.1 (by decide +kernel)
  constructor
  · exact (guarded.closed (by decide) _ _).2 ⟨"sk-2", "sk-2", by decide, presents, rfl⟩
  · rw [(guarded.exact_ Function.injective_id).1]
    rintro ⟨key, set, presented⟩
    rw [← presents.unique presented] at set
    exact absurd set (by decide)

end DialectGateway.Access
