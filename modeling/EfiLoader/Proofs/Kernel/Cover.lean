import EfiLoader.Proofs.Kernel.Bounds
import Mathlib.Algebra.Order.Floor.Div

/-!
The span of a list of segments and its pages, for every list and every span: `cover_tightest`. Ends
of segments may lie past the word, spans may be reversed.
-/

namespace EfiLoader.Kernel.Span

variable {ε : Type}

theorem Tight.first_le_last {span : Span} {segments : List Segment} (tight : span.Tight segments) :
    span.first ≤ span.last := by
  obtain ⟨s, member, _⟩ := tight.first.1
  exact (tight.encloses s member).first_le_last

theorem Tight.unique {span other : Span} {segments : List Segment} (tight : span.Tight segments)
    (otherTight : other.Tight segments) : span = other := by
  have first := UInt64.toNat_inj.mp (tight.first.unique otherTight.first)
  have last := UInt64.toNat_inj.mp (tight.last.unique otherTight.last)
  cases span
  cases other
  exact congrArg₂ _ first last

theorem Tight.perm {span : Span} {segments others : List Segment} (perm : others.Perm segments)
    (tight : span.Tight segments) : span.Tight others := by
  obtain ⟨first, last⟩ := tight
  constructor
  · simpa only [perm.mem_iff] using first
  · simpa only [perm.mem_iff] using last

theorem foldlM_extend_crash {segments : List Segment} {s : Segment} (member : s ∈ segments)
    (past : wordLimit ≤ s.memoryEnd) (joined : Option Span) :
    (segments.foldlM extend joined : Outcome ε (Option Span)) = .crash := by
  induction segments generalizing joined with
  | nil => cases member
  | cons head rest ih =>
    rw [List.foldlM_cons]
    by_cases memory : head.memoryEnd < wordLimit
    · obtain ⟨own, found, _⟩ := ofSegment_tight (ε := ε) memory
      rcases List.mem_cons.mp member with rfl | later
      · exact absurd memory (Nat.not_lt.mpr past)
      · rw [extend, found]
        exact ih later _
    · rw [extend, ofSegment, if_neg memory]
      rfl

/-- The ways to look for a span. -/
inductive Covering (segments : List Segment) : Outcome ε (Option Span) → Prop
  | past (s : Segment) (member : s ∈ segments) (past : wordLimit ≤ s.memoryEnd) :
      Covering segments .crash
  | nothing (nil : segments = []) : Covering segments (.ok none)
  | found (span : Span) (memory : ∀ s ∈ segments, s.memoryEnd < wordLimit)
      (tight : span.Tight segments) : Covering segments (.ok (some span))

theorem covering (segments : List Segment) :
    Covering segments (cover segments : Outcome ε (Option Span)) := by
  by_cases memory : ∀ s ∈ segments, s.memoryEnd < wordLimit
  · by_cases nil : segments = []
    · subst nil
      exact .nothing rfl
    · obtain ⟨span, covered, tight⟩ := cover_tight (ε := ε) memory nil
      rw [covered]
      exact .found span memory tight
  · simp only [not_forall, Nat.not_lt] at memory
    obtain ⟨s, member, past⟩ := memory
    have crashed : (cover segments : Outcome ε (Option Span)) = .crash :=
      foldlM_extend_crash member past none
    rw [crashed]
    exact .past s member past

theorem Tight.ne_nil {span : Span} {segments : List Segment} (tight : span.Tight segments) :
    segments ≠ [] := by
  obtain ⟨s, member, _⟩ := tight.first.1
  exact List.ne_nil_of_mem member

/-- Only one outcome is possible for a list. -/
theorem Covering.unique {segments : List Segment} {o o' : Outcome ε (Option Span)}
    (covering : Covering segments o) (other : Covering segments o') : o = o' := by
  cases covering with
  | past s member past =>
    cases other with
    | past => rfl
    | nothing nil => exact absurd nil (List.ne_nil_of_mem member)
    | found _ memory _ => exact absurd (memory s member) (Nat.not_lt.mpr past)
  | nothing nil =>
    cases other with
    | past _ member _ => exact absurd nil (List.ne_nil_of_mem member)
    | nothing => rfl
    | found _ _ tight => exact absurd nil tight.ne_nil
  | found span memory tight =>
    cases other with
    | past s member past => exact absurd (memory s member) (Nat.not_lt.mpr past)
    | nothing nil => exact absurd nil tight.ne_nil
    | found _ _ otherTight => rw [tight.unique otherTight]

theorem Covering.perm {segments others : List Segment} {o : Outcome ε (Option Span)}
    (perm : others.Perm segments) (covering : Covering segments o) : Covering others o := by
  cases covering with
  | past s member past => exact .past s (perm.mem_iff.mpr member) past
  | nothing nil =>
    subst nil
    exact .nothing perm.eq_nil
  | found span memory tight =>
    exact .found span (fun s member => memory s (perm.mem_iff.mp member)) (tight.perm perm)

/-- The order of segments makes no difference to their span. -/
theorem cover_perm {segments others : List Segment} (perm : others.Perm segments) :
    (cover others : Outcome ε (Option Span)) = cover segments :=
  (covering others).unique ((covering segments).perm perm)

theorem first_lt_base (span : Span) : span.first.toNat < span.base.toNat + pageSize := by
  rw [toNat_base]
  simp only [pageSize]
  omega

/-- Of a span that starts with a page, the pages are its length in pages, rounded up. -/
theorem pages_of_aligned {span : Span} (ordered : span.first ≤ span.last)
    (aligned : pageSize ∣ span.first.toNat) :
    (span.pages : Outcome ε Nat) = .ok ((span.last.toNat - span.first.toNat) ⌈/⌉ pageSize) := by
  have base : span.base.toNat = span.first.toNat := by rw [toNat_base, Nat.div_mul_cancel aligned]
  have reaches : span.base ≤ span.last := by
    rw [UInt64.le_iff_toNat_le, base]
    exact UInt64.le_iff_toNat_le.mp ordered
  rw [pages, if_pos reaches, base, Nat.ceilDiv_eq_add_pred_div]
  rfl

/-- **The span of a list is the least one that holds its segments, in whatever order they come, and
its pages are the fewest that hold the span.** No span is found exactly if there are no segments,
and looking for one crashes exactly if a segment ends past the word. -/
theorem cover_tightest :
    (∀ segments : List Segment,
      ((cover segments : Outcome ε (Option Span)) = .ok none ↔ segments = []) ∧
      ((cover segments : Outcome ε (Option Span)) = .crash ↔
        ∃ s ∈ segments, wordLimit ≤ s.memoryEnd) ∧
      (segments ≠ [] → (∀ s ∈ segments, s.memoryEnd < wordLimit) →
        ∃ span, (cover segments : Outcome ε (Option Span)) = .ok (some span) ∧
          IsLeast {a | ∃ s ∈ segments, s.address.toNat = a} span.first.toNat ∧
          IsGreatest {a | ∃ s ∈ segments, s.address.toNat + s.memorySize.toNat = a}
            span.last.toNat ∧
          span.first ≤ span.last) ∧
      ∀ others : List Segment, others.Perm segments →
        (cover others : Outcome ε (Option Span)) = cover segments) ∧
    ∀ span : Span,
      (span.first ≤ span.last →
        pageSize ∣ span.base.toNat ∧ span.base ≤ span.first ∧
        span.first.toNat < span.base.toNat + pageSize ∧
        ∃ pages, (span.pages : Outcome ε Nat) = .ok pages ∧
          IsLeast {n | span.last.toNat ≤ span.base.toNat + n * pageSize} pages ∧
          (pageSize ∣ span.first.toNat →
            pages = (span.last.toNat - span.first.toNat) ⌈/⌉ pageSize)) ∧
      (span.last < span.base → (span.pages : Outcome ε Nat) = .crash) := by
  refine ⟨fun segments => ⟨?_, ?_, ?_, fun others perm => cover_perm perm⟩, fun span => ⟨?_, ?_⟩⟩
  · constructor
    · intro nothing
      have searched := covering (ε := ε) segments
      rw [nothing] at searched
      cases searched with
      | nothing nil => exact nil
    · rintro rfl
      rfl
  · constructor
    · intro crashed
      have searched := covering (ε := ε) segments
      rw [crashed] at searched
      cases searched with
      | past s member past => exact ⟨s, member, past⟩
    · rintro ⟨s, member, past⟩
      exact foldlM_extend_crash member past none
  · intro nonempty memory
    obtain ⟨span, covered, tight⟩ := cover_tight (ε := ε) memory nonempty
    exact ⟨span, covered, tight.first, tight.last, tight.first_le_last⟩
  · intro ordered
    obtain ⟨pages, counted, least⟩ := pages_least (ε := ε) ordered
    refine ⟨?_, UInt64.le_iff_toNat_le.mpr span.base_le_first, span.first_lt_base, pages, counted,
      least, fun aligned => ?_⟩
    · rw [toNat_base]
      exact Nat.dvd_mul_left _ _
    · exact Except.ok.inj (counted.symm.trans (pages_of_aligned ordered aligned))
  · intro reversed
    exact if_neg (UInt64.not_le.mpr reversed)

/-- Two segments in no order, from the middle of one page into the middle of another, and a span
that starts with a page. -/
theorem cover_tightest_unaligned :
    let segments : List Segment := [⟨0, 0x101800, 0, 0x801⟩, ⟨0, 0x100800, 0, 0⟩]
    let aligned : Span := ⟨0x1000, 0x3001⟩
    let reversed : Span := ⟨0x2000, 0x1fff⟩
    ∃ span, (cover segments : Outcome Empty (Option Span)) = .ok (some span) ∧
      (cover segments.reverse : Outcome Empty (Option Span)) = .ok (some span) ∧
      span.first.toNat = 0x100800 ∧ span.last.toNat = 0x102001 ∧
      (span.pages : Outcome Empty Nat) = .ok 3 ∧
      (aligned.pages : Outcome Empty Nat) = .ok 3 ∧
      (reversed.pages : Outcome Empty Nat) = .crash := by
  intro segments aligned reversed
  obtain ⟨lists, spans⟩ := cover_tightest (ε := Empty)
  obtain ⟨_, _, found, reordered⟩ := lists segments
  obtain ⟨span, covered, first, last, ordered⟩ := found (by decide) (by decide)
  obtain ⟨pagesOf, _⟩ := spans span
  obtain ⟨_, _, _, pages, counted, least, _⟩ := pagesOf ordered
  have above : ∀ s ∈ segments, 0x100800 ≤ s.address.toNat := by decide
  have below : ∀ s ∈ segments, s.address.toNat + s.memorySize.toNat ≤ 0x102001 := by decide
  have start : span.first.toNat = 0x100800 :=
    first.unique ⟨⟨⟨0, 0x100800, 0, 0⟩, by decide, rfl⟩, fun _ ⟨s, member, same⟩ =>
      same ▸ above s member⟩
  have stop : span.last.toNat = 0x102001 :=
    last.unique ⟨⟨⟨0, 0x101800, 0, 0x801⟩, by decide, rfl⟩, fun _ ⟨s, member, same⟩ =>
      same ▸ below s member⟩
  have three : pages = 3 := by
    have base := toNat_base span
    rw [start] at base
    refine least.unique ⟨?_, fun n reaching => ?_⟩
    · simp [base, stop, pageSize]
    · simp only [Set.mem_ofPred_eq, base, stop, pageSize] at reaching
      omega
  subst three
  obtain ⟨_, _, _, whole, countedWhole, _, rounded⟩ := (spans aligned).1 (by decide)
  have wholeThree : whole = 3 := by
    rw [rounded (by decide), Nat.ceilDiv_eq_add_pred_div]
    decide
  subst wholeThree
  exact ⟨span, covered, (reordered _ segments.reverse_perm).trans covered, start, stop, counted,
    countedWhole, (spans reversed).2 (by decide)⟩

end EfiLoader.Kernel.Span
