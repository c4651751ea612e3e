import SeppPy.Encoding
import SeppPy.Data.Split

/-! # The language of trace contexts

`_validate_traceparent` splits a header at its hyphens and checks the fields. What it accepts has a
positional grammar, which says of every character where it may stand. A separator is not a
hex digit, so a header of valid fields splits into exactly these fields again, and fields
of fixed widths stand at fixed positions.
-/

namespace SeppPy

/-- An ASCII hex digit of either case. -/
def HexDigit (c : Char) : Prop :=
  ('0' ≤ c ∧ c ≤ '9') ∨ ('a' ≤ c ∧ c ≤ 'f') ∨ ('A' ≤ c ∧ c ≤ 'F')

instance (c : Char) : Decidable (HexDigit c) := inferInstanceAs (Decidable (_ ∨ _))

/-- The positional grammar of a `traceparent`. -/
structure Grammar (traceparent : String) : Prop where
  length : traceparent.length = 55
  hyphens : ∀ i ∈ [2, 35, 52], traceparent.toList[i]? = some '-'
  digits : ∀ i c, i ∉ [2, 35, 52] → traceparent.toList[i]? = some c → HexDigit c
  traceId : ∃ i c, 3 ≤ i ∧ i ≤ 34 ∧ traceparent.toList[i]? = some c ∧ c ≠ '0'
  spanId : ∃ i c, 36 ≤ i ∧ i ≤ 51 ∧ traceparent.toList[i]? = some c ∧ c ≠ '0'

/-! ## The checks of one field -/

/-- The digits `_is_hex` looks for are the three ranges of ASCII. -/
theorem mem_digits_iff (c : Char) : c ∈ "0123456789abcdefABCDEF".toList ↔ HexDigit c := by
  constructor
  · intro member
    have all : ("0123456789abcdefABCDEF".toList.all fun c => decide (HexDigit c)) = true := by decide
    exact of_decide_eq_true (List.all_eq_true.mp all c member)
  · intro digit
    have bounds : (48 ≤ c.toNat ∧ c.toNat ≤ 57) ∨ (97 ≤ c.toNat ∧ c.toNat ≤ 102) ∨
        (65 ≤ c.toNat ∧ c.toNat ≤ 70) := digit
    have all : ∀ n < 103, (48 ≤ n ∧ n ≤ 57) ∨ (97 ≤ n ∧ n ≤ 102) ∨ (65 ≤ n ∧ n ≤ 70) →
        Char.ofNat n ∈ "0123456789abcdefABCDEF".toList := by decide
    rw [← Char.ofNat_toNat c]
    exact all c.toNat (by omega) bounds

private theorem isHex_iff {s : List Char} : isHex s = true ↔ ∀ c ∈ s, HexDigit c := by
  simp only [isHex, List.all_eq_true, decide_eq_true_eq, mem_digits_iff]

private theorem hyphen_not_mem {s : List Char} (hex : isHex s = true) : '-' ∉ s := by
  intro member
  have digit := isHex_iff.mp hex '-' member
  revert digit
  decide

/-- A field is not all zeros when it is empty or holds another character. -/
theorem allZero_eq_false_iff {s : List Char} : allZero s = false ↔ s = [] ∨ ∃ c ∈ s, c ≠ '0' := by
  cases s with
  | nil => exact iff_of_true rfl (.inl rfl)
  | cons first rest => simp [allZero, imp_iff_not_or]

/-- A field of `width` hex digits. -/
structure HexField (width : ℕ) (field : List Char) : Prop where
  length : field.length = width
  hex : isHex field = true

/-- A field of hex digits which are not all zeros. -/
structure HexId (width : ℕ) (field : List Char) : Prop extends HexField width field where
  nonzero : allZero field = false

private theorem hexField_iff {width : ℕ} {field : List Char} :
    HexField width field ↔ ¬ (field.length ≠ width ∨ (!isHex field) = true) := by
  rw [not_or, not_not, Bool.not_eq_true', Bool.not_eq_false]
  exact ⟨fun ⟨length, hex⟩ => ⟨length, hex⟩, fun ⟨length, hex⟩ => ⟨length, hex⟩⟩

private theorem hexId_iff {width : ℕ} {field : List Char} :
    HexId width field ↔ HexField width field ∧ ¬ allZero field = true := by
  rw [Bool.not_eq_true]
  exact ⟨fun ⟨shape, nonzero⟩ => ⟨shape, nonzero⟩, fun ⟨shape, nonzero⟩ => ⟨shape, nonzero⟩⟩

/-- The text splits at its hyphens into four valid fields. -/
def ValidFields (l : List Char) : Prop :=
  ∃ version traceId spanId flags, l.splitOn '-' = [version, traceId, spanId, flags] ∧
    HexField 2 version ∧ HexId 32 traceId ∧ HexId 16 spanId ∧ HexField 2 flags

/-! ## From the fields to the positions -/

/-- The checks are made of the fields one by one. -/
theorem validateTraceparent_ok_iff (traceparent : String) :
    validateTraceparent traceparent = .ok () ↔ ValidFields traceparent.toList := by
  unfold validateTraceparent ValidFields
  split
  · next version traceId spanId flags fields =>
    simp only [Except.ite_error_eq_ok_iff, ← hexField_iff, and_true, fields, List.cons.injEq]
    constructor
    · rintro ⟨versionOk, traceOk, traceNonzero, spanOk, spanNonzero, flagsOk⟩
      exact ⟨version, traceId, spanId, flags, ⟨rfl, rfl, rfl, rfl⟩, versionOk,
        hexId_iff.mpr ⟨traceOk, traceNonzero⟩, hexId_iff.mpr ⟨spanOk, spanNonzero⟩, flagsOk⟩
    · rintro ⟨_, _, _, _, ⟨rfl, rfl, rfl, rfl⟩, versionOk, traceOk, spanOk, flagsOk⟩
      obtain ⟨traceOk, traceNonzero⟩ := hexId_iff.mp traceOk
      obtain ⟨spanOk, spanNonzero⟩ := hexId_iff.mp spanOk
      exact ⟨versionOk, traceOk, traceNonzero, spanOk, spanNonzero, flagsOk⟩
  · next other =>
    refine iff_of_false ?_ ?_
    · intro impossible
      contradiction
    · rintro ⟨version, traceId, spanId, flags, fields, _⟩
      exact other version traceId spanId flags fields

/-- Valid fields hold no hyphen, so putting them together loses nothing. -/
theorem validFields_iff_append {l : List Char} :
    ValidFields l ↔
      ∃ version, version.length = 2 ∧ ∃ l₁, l = version ++ '-' :: l₁ ∧ (isHex version = true ∧
        ∃ traceId, traceId.length = 32 ∧ ∃ l₂, l₁ = traceId ++ '-' :: l₂ ∧
          (isHex traceId = true ∧ allZero traceId = false ∧
            ∃ spanId, spanId.length = 16 ∧ ∃ flags, l₂ = spanId ++ '-' :: flags ∧
              (isHex spanId = true ∧ allZero spanId = false ∧ HexField 2 flags))) := by
  constructor
  · rintro ⟨version, traceId, spanId, flags, fields, versionOk, traceOk, spanOk, flagsOk⟩
    obtain ⟨_, l₁, first, fields⟩ := List.splitOn_eq_cons_cons_iff.mp fields
    obtain ⟨_, l₂, second, fields⟩ := List.splitOn_eq_cons_cons_iff.mp fields
    obtain ⟨_, l₃, third, fields⟩ := List.splitOn_eq_cons_cons_iff.mp fields
    obtain ⟨rfl, _⟩ := List.splitOn_eq_singleton_iff.mp fields
    exact ⟨version, versionOk.length, l₁, first, versionOk.hex, traceId, traceOk.length, l₂, second,
      traceOk.hex, traceOk.nonzero, spanId, spanOk.length, l₃, third, spanOk.hex, spanOk.nonzero,
      flagsOk⟩
  · rintro ⟨version, width, _, rfl, hex, traceId, traceWidth, _, rfl, traceHex, traceNonzero,
      spanId, spanWidth, flags, rfl, spanHex, spanNonzero, flagsOk⟩
    refine ⟨version, traceId, spanId, flags, ?_, ⟨width, hex⟩,
      ⟨⟨traceWidth, traceHex⟩, traceNonzero⟩, ⟨⟨spanWidth, spanHex⟩, spanNonzero⟩, flagsOk⟩
    rw [List.splitOn_append_cons_self_of_not_mem (hyphen_not_mem hex),
      List.splitOn_append_cons_self_of_not_mem (hyphen_not_mem traceHex),
      List.splitOn_append_cons_self_of_not_mem (hyphen_not_mem spanHex),
      List.splitOn_eq_singleton (hyphen_not_mem flagsOk.hex)]

/-- Hex digits in the `n` positions from `i` on. -/
theorem isHex_slice_iff {l : List Char} {i n : ℕ} :
    isHex ((l.drop i).take n) = true ↔ ∀ k c, i ≤ k → k < i + n → l[k]? = some c → HexDigit c := by
  simp only [isHex_iff, List.mem_take_drop_iff]
  constructor
  · intro digits k c above below found
    exact digits c ⟨k, above, below, found⟩
  · rintro digits c ⟨k, above, below, found⟩
    exact digits k c above below found

/-- Another character than zero in the `n` positions from `i` on, of which there is one. -/
theorem nonzero_slice_iff {l : List Char} {i n : ℕ} (within : i < l.length) (wide : 0 < n) :
    allZero ((l.drop i).take n) = false ↔ ∃ k c, i ≤ k ∧ k < i + n ∧ l[k]? = some c ∧ c ≠ '0' := by
  have occupied : (l.drop i).take n ≠ [] := by
    apply List.ne_nil_of_length_pos
    rw [List.length_take, List.length_drop]
    omega
  simp only [allZero_eq_false_iff, occupied, false_or, List.mem_take_drop_iff]
  constructor
  · rintro ⟨c, ⟨k, above, below, found⟩, nonzero⟩
    exact ⟨k, c, above, below, found, nonzero⟩
  · rintro ⟨k, c, above, below, found, nonzero⟩
    exact ⟨c, ⟨k, above, below, found⟩, nonzero⟩

/-- Fields of fixed widths are read off at fixed positions. -/
theorem validFields_iff_slices {l : List Char} :
    ValidFields l ↔
      l.length = 55 ∧ (l[2]? = some '-' ∧ l[35]? = some '-' ∧ l[52]? = some '-') ∧
        (isHex ((l.drop 0).take 2) = true ∧ isHex ((l.drop 3).take 32) = true ∧
          isHex ((l.drop 36).take 16) = true ∧ isHex ((l.drop 53).take 2) = true) ∧
        allZero ((l.drop 3).take 32) = false ∧ allZero ((l.drop 36).take 16) = false := by
  rw [validFields_iff_append]
  simp only [List.exists_eq_append_cons_iff, List.getElem?_drop, List.drop_drop, List.drop_zero,
    Nat.reduceAdd]
  constructor
  · rintro ⟨first, version, second, traceId, traceNonzero, third, spanId, spanNonzero, flags⟩
    have length := flags.length
    rw [List.length_drop] at length
    refine ⟨by omega, ⟨first, second, third⟩, ⟨version, traceId, spanId, ?_⟩, traceNonzero,
      spanNonzero⟩
    rw [List.take_of_length_le flags.length.le]
    exact flags.hex
  · rintro ⟨length, ⟨first, second, third⟩, ⟨version, traceId, spanId, flags⟩, traceNonzero,
      spanNonzero⟩
    have rest : (l.drop 53).length = 2 := by rw [List.length_drop, length]
    rw [List.take_of_length_le rest.le] at flags
    exact ⟨first, version, second, traceId, traceNonzero, third, spanId, spanNonzero, rest, flags⟩

/-- Everything but the separators is a digit when the four stretches between them are. -/
theorem digits_iff_slices {l : List Char} (length : l.length = 55) :
    (∀ i c, i ∉ [2, 35, 52] → l[i]? = some c → HexDigit c) ↔
      isHex ((l.drop 0).take 2) = true ∧ isHex ((l.drop 3).take 32) = true ∧
        isHex ((l.drop 36).take 16) = true ∧ isHex ((l.drop 53).take 2) = true := by
  simp only [isHex_slice_iff, List.mem_cons, List.not_mem_nil, or_false, not_or]
  constructor
  · intro digits
    refine ⟨?_, ?_, ?_, ?_⟩
    all_goals
      intro k c above below found
      exact digits k c (by omega) found
  · rintro ⟨version, traceId, spanId, flags⟩ i c between found
    have within := (List.getElem?_eq_some_iff.mp found).1
    obtain stretch | stretch | stretch | stretch :
        i < 0 + 2 ∨ (3 ≤ i ∧ i < 3 + 32) ∨ (36 ≤ i ∧ i < 36 + 16) ∨ (53 ≤ i ∧ i < 53 + 2) := by
      omega
    · exact version i c (Nat.zero_le i) stretch found
    · exact traceId i c stretch.1 stretch.2 found
    · exact spanId i c stretch.1 stretch.2 found
    · exact flags i c stretch.1 stretch.2 found

/-- The split-and-check parser accepts the positional grammar. -/
theorem validateTraceparent_ok_iff_grammar (traceparent : String) :
    validateTraceparent traceparent = .ok () ↔ Grammar traceparent := by
  rw [validateTraceparent_ok_iff, validFields_iff_slices]
  constructor
  · rintro ⟨length, ⟨first, second, third⟩, digits, traceId, spanId⟩
    rw [nonzero_slice_iff (by omega) (by omega)] at traceId spanId
    refine ⟨String.length_toList ▸ length, ?_, (digits_iff_slices length).mpr digits, ?_, ?_⟩
    · intro i separator
      simp only [List.mem_cons, List.not_mem_nil, or_false] at separator
      obtain rfl | rfl | rfl := separator <;> assumption
    · obtain ⟨k, c, above, below, found, nonzero⟩ := traceId
      exact ⟨k, c, above, by omega, found, nonzero⟩
    · obtain ⟨k, c, above, below, found, nonzero⟩ := spanId
      exact ⟨k, c, above, by omega, found, nonzero⟩
  · intro grammar
    have length : traceparent.toList.length = 55 := String.length_toList ▸ grammar.length
    refine ⟨length, ⟨?_, ?_, ?_⟩, (digits_iff_slices length).mp grammar.digits, ?_, ?_⟩
    · exact grammar.hyphens 2 (by decide)
    · exact grammar.hyphens 35 (by decide)
    · exact grammar.hyphens 52 (by decide)
    · obtain ⟨k, c, above, below, found, nonzero⟩ := grammar.traceId
      rw [nonzero_slice_iff (by omega) (by omega)]
      exact ⟨k, c, above, by omega, found, nonzero⟩
    · obtain ⟨k, c, above, below, found, nonzero⟩ := grammar.spanId
      rw [nonzero_slice_iff (by omega) (by omega)]
      exact ⟨k, c, above, by omega, found, nonzero⟩

example : validateTraceparent "00-0af7651916cd43dd8448eb211c80319c-b7ad6b7169203331-01" = .ok () :=
  rfl

example : validateTraceparent "00-0af7651916cd43dd8448eb211c80319c-0000000000000000-01" =
    .error "invalid traceparent: span_id must not be all zeros" := rfl

/-! ## What the constructor and the decoder make of it -/

private theorem TraceContext.init_ok_iff {traceparent : String} {tracestate : Option String}
    {tc : TraceContext} :
    TraceContext.init traceparent tracestate = .ok tc ↔
      tc.traceparent = traceparent ∧ tc.tracestate = tracestate := by
  constructor
  · intro built
    unfold TraceContext.init at built
    split at built
    · cases built
      exact ⟨rfl, rfl⟩
    · contradiction
  · rintro ⟨rfl, rfl⟩
    exact tc.init_self

/-- `TraceContext(...)` succeeds on the grammar and raises a `TraceContextError` elsewhere. -/
theorem TraceContext.init_cases (traceparent : String) (tracestate : Option String) :
    (Grammar traceparent ∧ ∃ tc, TraceContext.init traceparent tracestate = .ok tc) ∨
      (¬ Grammar traceparent ∧
        ∃ msg, TraceContext.init traceparent tracestate = .error (.traceContextError msg)) := by
  rw [← validateTraceparent_ok_iff_grammar]
  unfold TraceContext.init
  split
  · next valid => exact .inl ⟨valid, _, rfl⟩
  · next msg invalid =>
    refine .inr ⟨?_, msg, rfl⟩
    intro valid
    rw [invalid] at valid
    contradiction

/-- A trace context is dropped outside the grammar and read as the context that is sent as the same
message inside it. -/
theorem traceContextFromPb_cases (m : Pb.TraceContext) :
    (Grammar m.traceparent ∧ ∃ tc, traceContextFromPb m = some tc ∧ traceContextToPb tc = m) ∨
      (¬ Grammar m.traceparent ∧ traceContextFromPb m = none) := by
  unfold traceContextFromPb
  rcases TraceContext.init_cases m.traceparent m.tracestate with
    ⟨grammar, tc, built⟩ | ⟨invalid, msg, raised⟩
  · obtain ⟨header, state⟩ := TraceContext.init_ok_iff.mp built
    refine .inl ⟨grammar, tc, by rw [built], ?_⟩
    rw [traceContextToPb, header, state]
  · exact .inr ⟨invalid, by rw [raised]⟩

/-- `TraceContext(...)` accepts exactly the grammar, and so does `trace_context_from_pb`, which
loses nothing of what it accepts. -/
theorem TraceContext.accepts_grammar (traceparent : String) (tracestate : Option String) :
    ((∃ tc, TraceContext.init traceparent tracestate = .ok tc) ↔ Grammar traceparent) ∧
      ((∃ msg, TraceContext.init traceparent tracestate = .error (.traceContextError msg)) ↔
        ¬ Grammar traceparent) ∧
      ∀ m : Pb.TraceContext, (traceContextFromPb m = none ↔ ¬ Grammar m.traceparent) ∧
        ∀ tc, traceContextFromPb m = some tc → traceContextToPb tc = m := by
  refine ⟨?_, ?_, fun m => ?_⟩
  · rcases TraceContext.init_cases traceparent tracestate with
      ⟨grammar, accepted⟩ | ⟨invalid, msg, raised⟩
    · exact iff_of_true accepted grammar
    · rw [raised]
      refine iff_of_false ?_ invalid
      rintro ⟨_, built⟩
      contradiction
  · rcases TraceContext.init_cases traceparent tracestate with
      ⟨grammar, tc, built⟩ | ⟨invalid, raised⟩
    · rw [built]
      refine iff_of_false ?_ (not_not_intro grammar)
      rintro ⟨_, raised⟩
      contradiction
    · exact iff_of_true raised invalid
  · rcases traceContextFromPb_cases m with ⟨grammar, tc, read, sent⟩ | ⟨invalid, dropped⟩
    · rw [read]
      refine ⟨iff_of_false (by simp) (not_not_intro grammar), ?_⟩
      intro tc' same
      cases same
      exact sent
    · rw [dropped]
      refine ⟨iff_of_true rfl invalid, ?_⟩
      intro tc read
      contradiction

end SeppPy
