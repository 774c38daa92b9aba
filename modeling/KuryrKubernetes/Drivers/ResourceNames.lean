import KuryrKubernetes.Handlers.KuryrNetwork

/-!
# Names of OpenStack resources

`get_resource_name` (`controller/drivers/utils.py`) puts a name together from a prefix, a
uid, the name of a Kubernetes object and a suffix, and cuts the name of the object where
the whole is longer than 255 characters.

The end of the slice is `254 - (length - 254)`, so what it leaves depends on the length of
the name: with a name of 253 characters the result has 255, with a longer one fewer and
with a shorter one more. From 508 characters on the end is negative and counts from the
back.

- `MaximalTruncation`: what the docstring asks for.
- `keptLength`: how much of the name stays (`getResourceName_kept`).
- `get_resource_name_maximal_iff`: the lengths for which this is as much as can stay.
-/

namespace KuryrKubernetes

namespace KuryrNetwork

/-! ## What the function is for -/

/-- The uid with its slash. -/
def uidPart (uid : Text) : Text := if uid = [] then [] else uid ++ ['/']

/-- The resource name with another name in the place of the object's. -/
def withName (uid prefixed suffix name : Text) : Text := prefixed ++ uidPart uid ++ name ++ suffix

/-- The length of all that is never cut. -/
def fixedLength (uid prefixed suffix : Text) : Nat := (withName uid prefixed suffix []).length

/-- The name of the object is kept as a whole if it fits, and otherwise up to the longest
part that fits, or one character less. -/
structure MaximalTruncation (name uid prefixed suffix result : Text) : Prop where
  length_le : result.length ≤ 255
  whole : (withName uid prefixed suffix name).length ≤ 255 →
    result = withName uid prefixed suffix name
  kept : ∃ kept, kept <+: name ∧ result = withName uid prefixed suffix kept ∧
    ∀ longer, longer <+: name → (withName uid prefixed suffix longer).length ≤ 255 →
      longer.length ≤ kept.length + 1

theorem length_withName (uid prefixed suffix name : Text) :
    (withName uid prefixed suffix name).length = fixedLength uid prefixed suffix + name.length := by
  simp only [fixedLength, withName, List.length_append, List.length_nil]
  omega

/-- What is kept is known by the result. -/
theorem withName_injective {uid prefixed suffix name name' : Text}
    (h : withName uid prefixed suffix name = withName uid prefixed suffix name') : name = name' :=
  List.append_cancel_left (List.append_cancel_right h)

/-! ## What is kept -/

/-- The length of `name[:254 - (length - 254)]`, if it is cut at all. -/
def keptLength (fixed name : Nat) : Nat :=
  if fixed + name ≤ 255 then name
  else if fixed + name ≤ 508 then min name (508 - (fixed + name))
  else name - (fixed + name - 508)

theorem sliceTo_eq (name : Text) {fixed : Nat} (h : 255 < fixed + name.length) :
    sliceTo name (254 - (((fixed + name.length : Nat) : Int) - 254)) =
      name.take (keptLength fixed name.length) := by
  unfold sliceTo keptLength
  rw [if_neg (Nat.not_le.mpr h)]
  -- the end of the slice is negative from 509 characters on
  by_cases hend : fixed + name.length ≤ 508
  · have hcut : (254 - (((fixed + name.length : Nat) : Int) - 254)).toNat =
        508 - (fixed + name.length) := by omega
    rw [if_pos (by omega), if_pos hend, hcut, Nat.min_comm, ← List.take_take, List.take_length]
  · have hcut : (-(254 - (((fixed + name.length : Nat) : Int) - 254))).toNat =
        fixed + name.length - 508 := by omega
    rw [if_neg (by omega), if_neg hend, hcut]

/-- **The result**: all the parts, and the beginning of the name. -/
theorem getResourceName_kept (name uid prefixed suffix : Text) :
    getResourceName name uid prefixed suffix = withName uid prefixed suffix
      (name.take (keptLength (fixedLength uid prefixed suffix) name.length)) := by
  have hlength := length_withName uid prefixed suffix name
  unfold getResourceName
  show prefixed ++ uidPart uid ++ (if 255 < (withName uid prefixed suffix name).length then
      sliceTo name (254 - (((withName uid prefixed suffix name).length : Int) - 254))
    else name) ++ suffix = _
  rw [hlength]
  by_cases hfits : fixedLength uid prefixed suffix + name.length ≤ 255
  · rw [if_neg (Nat.not_lt.mpr hfits), keptLength, if_pos hfits, List.take_length]
    rfl
  · have hlong : 255 < fixedLength uid prefixed suffix + name.length := by omega
    rw [if_pos hlong, sliceTo_eq name hlong]
    rfl

theorem keptLength_le (fixed name : Nat) : keptLength fixed name ≤ name := by
  unfold keptLength
  split
  · exact Nat.le_refl _
  · split
    · exact Nat.min_le_left _ _
    · exact Nat.sub_le _ _

theorem length_kept (name uid prefixed suffix : Text) :
    (name.take (keptLength (fixedLength uid prefixed suffix) name.length)).length =
      keptLength (fixedLength uid prefixed suffix) name.length :=
  List.length_take_of_le (keptLength_le _ _)

/-- The lengths: as much stays as fits, or one character less. -/
theorem keptLength_maximal_iff {fixed name : Nat} (hfixed : fixed ≤ 255) :
    (fixed + keptLength fixed name ≤ 255 ∧
        (255 < fixed + name → 254 ≤ fixed + keptLength fixed name)) ↔
      fixed + name ≤ 255 ∨ name = 253 ∨ name = 254 ∧ fixed ≤ 254 := by
  unfold keptLength
  by_cases hfits : fixed + name ≤ 255
  · rw [if_pos hfits]
    omega
  · rw [if_neg hfits]
    by_cases hend : fixed + name ≤ 508
    · rw [if_pos hend]
      omega
    · rw [if_neg hend]
      omega

/-- **Names are maximal truncations** exactly where nothing is cut or the name has 253
characters, or 254 with room for one of them. -/
theorem get_resource_name_maximal_iff (name : Text) {uid prefixed suffix : Text}
    (hfixed : fixedLength uid prefixed suffix ≤ 255) :
    MaximalTruncation name uid prefixed suffix (getResourceName name uid prefixed suffix) ↔
      fixedLength uid prefixed suffix + name.length ≤ 255 ∨ name.length = 253 ∨
        name.length = 254 ∧ fixedLength uid prefixed suffix ≤ 254 := by
  rw [← keptLength_maximal_iff hfixed]
  have hresult := getResourceName_kept name uid prefixed suffix
  have hkept := length_kept name uid prefixed suffix
  have hlength : (getResourceName name uid prefixed suffix).length =
      fixedLength uid prefixed suffix +
        keptLength (fixedLength uid prefixed suffix) name.length := by
    rw [hresult, length_withName, hkept]
  constructor
  -- only the lengths matter: what is kept is the beginning of the name anyway
  · intro h
    have hle := h.length_le
    rw [hlength] at hle
    refine ⟨hle, fun hlong => ?_⟩
    obtain ⟨kept, -, heq, hmax⟩ := h.kept
    obtain rfl := withName_injective (hresult.symm.trans heq)
    -- the longest part of the name that fits
    have hfit : (name.take (255 - fixedLength uid prefixed suffix)).length =
        255 - fixedLength uid prefixed suffix := List.length_take_of_le (by omega)
    have hlonger := hmax _ (List.take_prefix (255 - fixedLength uid prefixed suffix) name)
      (by rw [length_withName, hfit]; omega)
    rw [hfit, hkept] at hlonger
    omega
  · rintro ⟨hle, hmax⟩
    refine ⟨hlength ▸ hle, fun hwhole => ?_, _, List.take_prefix _ _, hresult,
      fun longer hlonger hfit => ?_⟩
    · rw [length_withName] at hwhole
      rw [hresult, keptLength, if_pos hwhole, List.take_length]
    · rw [length_withName] at hfit
      rw [hkept]
      by_cases hlong : 255 < fixedLength uid prefixed suffix + name.length
      · have := hmax hlong
        omega
      · rw [keptLength, if_pos (Nat.not_lt.mp hlong)]
        exact Nat.le_succ_of_le hlonger.length_le

/-- A network of a namespace with a name of 253 characters. -/
theorem get_resource_name_maximal_net :
    MaximalTruncation (List.replicate 253 'a') [] "ns/".toList "-net".toList
      (getResourceName (List.replicate 253 'a') [] "ns/".toList "-net".toList) :=
  (get_resource_name_maximal_iff (List.replicate 253 'a') (by decide)).mpr
    (.inr (.inl List.length_replicate))

/-- `get_port_name` of a pod. -/
def getPortName (ns name : Text) : Text := getResourceName name [] (ns ++ ['/']) []

/-- The port of a pod whose name has 200 characters, in a namespace whose name has 63. -/
theorem get_resource_name_too_long :
    fixedLength [] (List.replicate 63 'n' ++ ['/']) [] ≤ 255 ∧
      (getPortName (List.replicate 63 'n') (List.replicate 200 'p')).length = 264 ∧
      ¬ MaximalTruncation (List.replicate 200 'p') [] (List.replicate 63 'n' ++ ['/']) []
        (getPortName (List.replicate 63 'n') (List.replicate 200 'p')) := by
  have hlength : (getPortName (List.replicate 63 'n') (List.replicate 200 'p')).length = 264 := by
    decide +kernel
  refine ⟨by decide, hlength, fun h => ?_⟩
  have hle := h.length_le
  rw [hlength] at hle
  exact absurd hle (by decide)

end KuryrNetwork

end KuryrKubernetes
