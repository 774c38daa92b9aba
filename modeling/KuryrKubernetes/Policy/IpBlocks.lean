import Mathlib.Data.Set.Lattice
import Mathlib.Order.CompletePartialOrder
import Mathlib.Order.Interval.Set.Basic
import KuryrKubernetes.Policy.Widening

/-!
# IP blocks with exceptions

`_parse_sg_rules` turns an `ipBlock` with exceptions into what each exception, taken
alone, leaves of the CIDR (network_policy.py:508–524), and allows all of these pieces. An
address is then left out only if every exception has it.

- `range` stands for the addresses of a CIDR, of either family; `cidr_exclude(a, b)`
  covers those of `a` without those of `b`.
- `IPBlock.resources`: the resources of one block, `covered` the addresses they stand for.
- `covered_resources`: what comes out, the CIDR without the intersection of the
  exceptions.
-/

namespace KuryrKubernetes

open Dicts LabelSelectors Results

/-- The resources `_parse_sg_rules` adds for one `ipBlock`. -/
def IPBlock.resources (net : Net) (b : IPBlock) : List Resource := (b.cidrs net).map .cidr

/-- The resources of a rule block are those of its IP blocks, one after the other. -/
theorem ipBlockResources_eq (net : Net) (block : RuleBlock) :
    ipBlockResources net block =
      ((block.peers.getD []).filterMap Peer.ipBlock).flatMap (IPBlock.resources net) := by
  unfold ipBlockResources
  refine List.flatMap_congr fun b _ => ?_
  unfold IPBlock.resources IPBlock.cidrs
  by_cases hex : b.except = []
  · simp [hex]
  · simp [hex, List.map_flatMap]

section

variable {α : Type} (range : String → Set α)

/-- The addresses of the CIDRs among some resources. -/
def covered (rs : List Resource) : Set α := {x | ∃ cidr, Resource.cidr cidr ∈ rs ∧ x ∈ range cidr}

/-- The addresses of the exceptions of an IP block. -/
def IPBlock.excepted (b : IPBlock) : Set α := {x | ∃ ex ∈ b.except, x ∈ range ex}

/-- `cidr_exclude(cidr, ex)` covers the CIDR without the exception. -/
def Excludes (net : Net) : Prop :=
  ∀ cidr ex, range ex ⊂ range cidr →
    {x | ∃ piece ∈ net.cidrExclude cidr ex, x ∈ range piece} = range cidr \ range ex

/-- The resources of an IP block stand for the CIDR without its exceptions, and the rules
made for them, in whatever block and cluster, reach no address of an exception. -/
structure IPBlock.Honoured (net : Net) (b : IPBlock) : Prop where
  covers : covered range (b.resources net) = range b.cidr \ b.excepted range
  avoids : ∀ c d policyNs block memo a why cidr, Made c net d policyNs block memo a why →
    why.via = none → (∃ r ∈ b.resources net, why.resource = some r) →
    a.rule.sgRule.remote_ip_prefix = some cidr → ∀ x ∈ range cidr, x ∉ b.excepted range

variable {range} {net : Net} {b : IPBlock}

/-- **What the pieces cover**: an address of the CIDR stays unless every exception has
it. -/
theorem mem_covered_resources (hnet : Excludes range net)
    (hb : ∀ ex ∈ b.except, range ex ⊂ range b.cidr) {x : α} :
    x ∈ covered range (b.resources net) ↔
      x ∈ range b.cidr ∧ (b.except ≠ [] → ∃ ex ∈ b.except, x ∉ range ex) := by
  have hpieces : ∀ ex ∈ b.except, ((∃ piece ∈ net.cidrExclude b.cidr ex, x ∈ range piece) ↔
      x ∈ range b.cidr ∧ x ∉ range ex) :=
    fun ex hex => Set.ext_iff.mp (hnet b.cidr ex (hb ex hex)) x
  have hcovered : x ∈ covered range (b.resources net) ↔ ∃ cidr ∈ b.cidrs net, x ∈ range cidr := by
    simp [covered, IPBlock.resources]
  rw [hcovered, IPBlock.cidrs]
  by_cases hex : b.except = []
  · simp [hex]
  · simp only [ne_eq, hex, not_false_eq_true, if_true, List.mem_flatMap, true_implies]
    constructor
    · rintro ⟨piece, ⟨ex, hmem, hpiece⟩, hx⟩
      obtain ⟨hcidr, hnot⟩ := (hpieces ex hmem).mp ⟨piece, hpiece, hx⟩
      exact ⟨hcidr, ex, hmem, hnot⟩
    · rintro ⟨hcidr, ex, hmem, hnot⟩
      obtain ⟨piece, hpiece, hx⟩ := (hpieces ex hmem).mpr ⟨hcidr, hnot⟩
      exact ⟨piece, ⟨ex, hmem, hpiece⟩, hx⟩

/-- A rule for a piece carries the piece. -/
theorem Made.carries_piece {c : Cluster} {d : Direction} {policyNs : String} {block : RuleBlock}
    {memo : Memo} {a : Append} {why : Reason} {piece : String}
    (h : Made c net d policyNs block memo a why) (hvia : why.via = none)
    (hr : why.resource = some (.cidr piece)) : a.rule.sgRule.remote_ip_prefix = some piece := by
  cases h with
  | peer ho ha =>
    cases hr
    cases hvia
    obtain ⟨cidr, hcidr, rfl⟩ := ha
    cases hcidr
    rfl
  | cidr ho hc => cases hr
  | anywhere hbare hports hport hn => cases hr

theorem IPBlock.honoured_of_covers
    (h : covered range (b.resources net) = range b.cidr \ b.excepted range) :
    b.Honoured range net where
  covers := h
  avoids := by
    rintro c d policyNs block memo a why cidr hmade hvia ⟨r, hr, hwhy⟩ hcidr x hx
    obtain ⟨piece, hpiece, rfl⟩ := List.mem_map.mp hr
    rw [hmade.carries_piece hvia hwhy] at hcidr
    cases hcidr
    have hcovered : x ∈ covered range (b.resources net) :=
      ⟨cidr, List.mem_map_of_mem hpiece, hx⟩
    rw [h] at hcovered
    exact hcovered.2

/-- The exceptions of an IP block are honoured exactly when they all are the same
range. -/
theorem ipBlock_exceptions_honoured_iff (range : String → Set α) (net : Net) (b : IPBlock)
    (hnet : Excludes range net) (hb : ∀ ex ∈ b.except, range ex ⊂ range b.cidr) :
    b.Honoured range net ↔ ∀ ex ∈ b.except, ∀ ex' ∈ b.except, range ex = range ex' := by
  constructor
  · intro h ex hex ex' hex'
    have hle : ∀ e ∈ b.except, ∀ e' ∈ b.except, range e ⊆ range e' := by
      intro e he e' he' x hx
      by_contra hnot
      -- the piece that `e'` leaves still has `x`
      have hcovered : x ∈ covered range (b.resources net) :=
        (mem_covered_resources hnet hb).mpr ⟨(hb e he).subset hx, fun _ => ⟨e', he', hnot⟩⟩
      rw [h.covers] at hcovered
      exact hcovered.2 ⟨e, he, hx⟩
    exact Set.Subset.antisymm (hle ex hex ex' hex') (hle ex' hex' ex hex)
  · intro hsame
    refine IPBlock.honoured_of_covers (Set.ext fun x => ?_)
    rw [mem_covered_resources hnet hb, Set.mem_sdiff]
    refine and_congr_right fun _ => ?_
    constructor
    · rintro hleft ⟨ex, hex, hx⟩
      obtain ⟨ex', hex', hnot⟩ := hleft (List.ne_nil_of_mem hex)
      rw [hsame ex hex ex' hex'] at hx
      exact hnot hx
    · intro hnot hne
      obtain ⟨ex, hex⟩ := List.exists_mem_of_ne_nil _ hne
      exact ⟨ex, hex, fun hx => hnot ⟨ex, hex, hx⟩⟩

end

/-! ## Halves of `10.0.0.0/8` -/

/-- The addresses of `10.0.0.0/8` and of its halves, as numbers. -/
def tenRange (cidr : String) : Set Nat :=
  if cidr = "10.0.0.0/8" then Set.Ico 167772160 184549376
  else if cidr = "10.0.0.0/9" then Set.Ico 167772160 176160768
  else if cidr = "10.128.0.0/9" then Set.Ico 176160768 184549376
  else ∅

/-- Either half is left when the other one is excluded. -/
def tenNet : Net :=
  { sampleNet with
    cidrExclude := fun cidr ex =>
      if cidr = "10.0.0.0/8" ∧ ex = "10.0.0.0/9" then ["10.128.0.0/9"]
      else if cidr = "10.0.0.0/8" ∧ ex = "10.128.0.0/9" then ["10.0.0.0/9"]
      else [cidr] }

theorem tenRange_eq_empty {cidr : String}
    (h : cidr ∉ ["10.0.0.0/8", "10.0.0.0/9", "10.128.0.0/9"]) : tenRange cidr = ∅ := by
  simp only [List.mem_cons, List.not_mem_nil, or_false, not_or] at h
  simp [tenRange, h]

theorem mem_tenRange_low {cidr : String} :
    167772160 ∈ tenRange cidr ↔ cidr = "10.0.0.0/8" ∨ cidr = "10.0.0.0/9" := by
  unfold tenRange
  split_ifs <;> simp [*]

theorem mem_tenRange_high {cidr : String} :
    176160768 ∈ tenRange cidr ↔ cidr = "10.0.0.0/8" ∨ cidr = "10.128.0.0/9" := by
  unfold tenRange
  split_ifs <;> simp [*]

theorem tenNet_excludes : Excludes tenRange tenNet := by
  intro cidr ex hinside
  by_cases hex : ex ∈ ["10.0.0.0/8", "10.0.0.0/9", "10.128.0.0/9"]
  · simp only [List.mem_cons, List.not_mem_nil, or_false] at hex
    have hlow := fun h => mem_tenRange_low.mp (hinside.subset (mem_tenRange_low.mpr h))
    have hhigh := fun h => mem_tenRange_high.mp (hinside.subset (mem_tenRange_high.mpr h))
    have hne : cidr ≠ ex := fun h => hinside.ne (h ▸ rfl)
    obtain rfl : cidr = "10.0.0.0/8" := by
      rcases hex with rfl | rfl | rfl
      · simp_all
      · simp_all
      · simp_all
    rcases hex with rfl | rfl | rfl
    · exact absurd rfl hne
    · ext x
      simp [tenNet, tenRange]
      omega
    · ext x
      simp [tenNet, tenRange]
      omega
  · have hempty := tenRange_eq_empty hex
    simp only [List.mem_cons, List.not_mem_nil, or_false, not_or] at hex
    simp [tenNet, hex, hempty]

theorem tenRange_halves :
    ∀ ex ∈ ["10.0.0.0/9", "10.128.0.0/9"], tenRange ex ⊂ tenRange "10.0.0.0/8" := by
  intro ex hex
  rcases List.mem_cons.mp hex with rfl | hex
  · refine ⟨fun x hx => ?_, fun h => ?_⟩
    · simp [tenRange] at hx ⊢
      omega
    · exact absurd (mem_tenRange_high.mp (h (mem_tenRange_high.mpr (.inl rfl)))) (by decide)
  · obtain rfl := List.mem_singleton.mp hex
    refine ⟨fun x hx => ?_, fun h => ?_⟩
    · simp [tenRange] at hx ⊢
      omega
    · exact absurd (mem_tenRange_low.mp (h (mem_tenRange_low.mpr (.inl rfl)))) (by decide)

/-- `10.0.0.0/8` but its lower half. -/
def upperHalf : IPBlock := ⟨"10.0.0.0/8", ["10.0.0.0/9"]⟩

theorem ipBlock_exceptions_honoured_upperHalf : upperHalf.Honoured tenRange tenNet := by
  refine (ipBlock_exceptions_honoured_iff tenRange tenNet upperHalf tenNet_excludes ?_).mpr ?_
  · exact fun ex hex => tenRange_halves ex (List.mem_cons.mpr (.inl (List.mem_singleton.mp hex)))
  · intro ex hex ex' hex'
    rw [List.mem_singleton.mp hex, List.mem_singleton.mp hex']

/-- `10.0.0.0/8` but both of its halves. -/
def noHalf : IPBlock := ⟨"10.0.0.0/8", ["10.0.0.0/9", "10.128.0.0/9"]⟩

/-- With both halves excluded, both of them are allowed. -/
theorem ipBlock_exceptions_lost :
    Excludes tenRange tenNet ∧ (∀ ex ∈ noHalf.except, tenRange ex ⊂ tenRange noHalf.cidr) ∧
      ¬ noHalf.Honoured tenRange tenNet := by
  refine ⟨tenNet_excludes, tenRange_halves, fun h => ?_⟩
  have hcovered : 167772160 ∈ covered tenRange (noHalf.resources tenNet) := by
    rw [mem_covered_resources tenNet_excludes tenRange_halves]
    refine ⟨mem_tenRange_low.mpr (.inl rfl), fun _ => ⟨"10.128.0.0/9", by decide, fun hx => ?_⟩⟩
    exact absurd (mem_tenRange_low.mp hx) (by decide)
  rw [h.covers] at hcovered
  exact hcovered.2 ⟨"10.0.0.0/9", by decide, mem_tenRange_low.mpr (.inr rfl)⟩

end KuryrKubernetes
