import KuryrKubernetes.Drivers.Selectors

/-!
# The services a policy affects

When the rules of a policy change, the handlers of KuryrPort, of pod labels and of
KuryrNetwork look for the Services whose load balancer has to follow. They do not look at
the pods behind a Service: `serviceMatchesAffectedPods` treats the selector of the Service
as the labels of a pod.

A pod behind a Service has the labels the selector names, and it may have more, so the
answer is too low where a policy asks for one of these: `affected_service_found_iff`.
`_is_service_affected` of the KuryrNetworkPolicy handler lists the pods instead.
-/

namespace KuryrKubernetes

open Dicts LabelSelectors

/-- `service_matches_affected_pods` (utils.py:547–564). -/
def serviceMatchesAffectedPods (service : Service) (podSelectors : List LabelSelector) : Bool :=
  match service.selector with
  | none => false
  | some svcSelector =>
    if svcSelector.items = [] then false
    else podSelectors.any fun selector => matchSelector (some selector) (some svcSelector)

/-- The pod is behind the Service: one namespace, and the labels of the selector. -/
def Pod.Backs (p : Pod) (service : Service) : Prop :=
  p.ns = service.ns ∧ ∃ svcSelector, service.selector = some svcSelector ∧
    svcSelector.items ≠ [] ∧ Extends svcSelector (p.labels.getD Dict.empty)

/-- The selector asks for no label but those in `part`, and for no empty value. -/
structure LabelSelector.AsksOnly (s : LabelSelector) (part : Labels) : Prop where
  keys : ∀ r ∈ s.requirements, r.op.positive = true → r.key ∈ part.keys
  values : ∀ e ∈ s.labelItems, e.2 ≠ ""

/-- The selector could select a pod that has the labels `part`. -/
def LabelSelector.Fits (s : LabelSelector) (part : Labels) : Prop :=
  ∃ labels, Extends part labels ∧ s.Selects (some labels) = true

theorem matchSelector_iff_selects {s : LabelSelector} {labels : Option Labels} :
    matchSelector (some s) labels = true ↔
      s.Selects labels = true ∧ ∀ e ∈ s.labelItems, e.2 ≠ "" := by
  rw [matchSelector_eq, selects_iff]
  constructor
  · rintro ⟨hlabels, hexps⟩
    exact ⟨⟨fun e he => (hlabels e he).1, hexps⟩, fun e he => (hlabels e he).2⟩
  · rintro ⟨⟨hlabels, hexps⟩, hvalues⟩
    exact ⟨fun e he => ⟨hlabels e he, hvalues e he⟩, hexps⟩

theorem LabelSelector.selects_iff_requirements {s : LabelSelector} {labels : Labels} :
    s.Selects (some labels) = true ↔ ∀ r ∈ s.requirements, r.Matches labels = true := by
  simp [LabelSelector.Selects, matchesAll]

/-- **What the test on the Service's selector decides**: the policy could select a pod of
the Service, and no further label decides whether it does. -/
theorem matchSelector_part_iff {s : LabelSelector} {part : Labels} :
    matchSelector (some s) (some part) = true ↔ s.AsksOnly part ∧ s.Fits part := by
  rw [matchSelector_iff_selects, LabelSelector.selects_iff_requirements]
  constructor
  · rintro ⟨hmatches, hvalues⟩
    refine ⟨⟨fun r hr => Requirement.key_mem_of_matches (hmatches r hr), hvalues⟩, part,
      Extends.refl part, ?_⟩
    exact LabelSelector.selects_iff_requirements.mpr hmatches
  · rintro ⟨hasks, labels, hext, hsel⟩
    rw [LabelSelector.selects_iff_requirements] at hsel
    refine ⟨fun r hr => ?_, hasks.values⟩
    exact Requirement.matches_of_extends hext (hsel r hr) (hasks.keys r hr)

theorem serviceMatchesAffectedPods_iff {service : Service} {svcSelector : Labels}
    (hsel : service.selector = some svcSelector) (hne : svcSelector.items ≠ [])
    (podSelectors : List LabelSelector) :
    serviceMatchesAffectedPods service podSelectors = true ↔
      ∃ s ∈ podSelectors, s.AsksOnly svcSelector ∧ s.Fits svcSelector := by
  unfold serviceMatchesAffectedPods
  simp only [hsel, if_neg hne, List.any_eq_true, matchSelector_part_iff]

/-- A Service with a pod the policies select is found exactly when one of the policies
could select a pod of the Service and asks for no label but those of its selector. -/
theorem affected_service_found_iff (service : Service) (podSelectors : List LabelSelector)
    (p : Pod) (hbacks : p.Backs service) :
    ((∃ s ∈ podSelectors, s.Selects p.labels = true) →
        serviceMatchesAffectedPods service podSelectors = true) ↔
      ((∃ s ∈ podSelectors, s.Selects p.labels = true) →
        ∃ s ∈ podSelectors, s.AsksOnly (service.selector.getD Dict.empty) ∧
          s.Fits (service.selector.getD Dict.empty)) := by
  obtain ⟨-, svcSelector, hsel, hne, -⟩ := hbacks
  rw [serviceMatchesAffectedPods_iff hsel hne, hsel]
  rfl

/-- The Service of `app: web`. -/
def webService : Service where
  name := "web"
  ns := "shop"
  deletionTimestamp := none
  clusterIP := some "10.1.0.10"
  selector := some webLabels
  targets := []

/-- The labels `app: web, role: db`. -/
def webDbLabels : Labels := ⟨[("app", "web"), ("role", "db")], by decide⟩

/-- The selector of `role: db`. -/
def dbSelector : LabelSelector := ⟨some ⟨[("role", "db")], by decide⟩, none⟩

theorem podWith_backs_webService : (podWith (some webDbLabels)).Backs webService :=
  ⟨rfl, webLabels, rfl, by decide, by decide⟩

theorem affected_service_found_web :
    webSelector.Selects (podWith (some webDbLabels)).labels = true ∧
      serviceMatchesAffectedPods webService [webSelector] = true := by
  have hsel : webSelector.Selects (podWith (some webDbLabels)).labels = true := by decide
  refine ⟨hsel, (affected_service_found_iff webService [webSelector] (podWith (some webDbLabels))
    podWith_backs_webService).mpr (fun _ => ?_) ⟨webSelector, by decide, hsel⟩⟩
  refine ⟨webSelector, by decide, ⟨?_, ?_⟩, ?_⟩
  · decide
  · decide
  · exact ⟨webLabels, Extends.refl webLabels, by decide⟩

/-- The policy of `role: db` selects a pod of the Service, which is not found. -/
theorem affected_service_missed :
    (podWith (some webDbLabels)).Backs webService ∧
      dbSelector.Selects (podWith (some webDbLabels)).labels = true ∧
      serviceMatchesAffectedPods webService [dbSelector] = false :=
  ⟨podWith_backs_webService, by decide, by decide⟩

end KuryrKubernetes
