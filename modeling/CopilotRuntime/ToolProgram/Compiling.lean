import CopilotRuntime.ToolProgram.PlanLaws

/-!
# When a program compiles

A program compiles exactly when it has a permitted number of steps with distinct ids, only
authorized tools, only well-formed references to its own steps and no cycle. Its layers then
follow the references, and resolving the arguments of a step reads the outputs of the steps it
waits for and nothing else.
-/

namespace CopilotRuntime.ToolProgram

open Foundation

variable {interp : Interpreter} {members : List (String × JsonValue)} {value : JsonValue}
  {ids : List String} {steps : List ToolProgramStep} {authorizedToolNames : List String}
  {limits : ToolProgramLimits} {program : RunToolProgramInput} {plan : ToolProgramPlan}

/-! ### Well-formed references -/

/-- The marker names a step, has a path of keys and positions if any, and nothing else. -/
structure WellFormed (members : List (String × JsonValue)) (id : String) : Prop where
  keys : ∀ field ∈ members, field.1 = StepRef.fromKey ∨ field.1 = StepRef.pathKey
  named : members.lookup StepRef.fromKey = some (.str id)
  path : ∀ path, members.lookup StepRef.pathKey = some path →
    ∃ items, path = .list items ∧
      ∀ item ∈ items, (∃ key, item = .str key) ∨ ∃ position, item = .int position

theorem unknownKeys_eq_nil_iff : StepRef.unknownKeys members = [] ↔
    ∀ field ∈ members, field.1 = StepRef.fromKey ∨ field.1 = StepRef.pathKey := by
  simp only [StepRef.unknownKeys, List.filter_eq_nil_iff, List.mem_map, forall_exists_index,
    and_imp, forall_apply_eq_imp_iff₂, Bool.and_eq_true, decide_eq_true_eq, not_and_or, not_not]

theorem parseSegment_eq_ok_iff {target : String} {item : JsonValue} :
    (∃ segment, StepRef.parseSegment target item = .ok segment) ↔
      (∃ key, item = .str key) ∨ ∃ position, item = .int position := by
  unfold StepRef.parseSegment
  cases item <;> simp

theorem parsePath_eq_ok_iff {target : String} {path : Option JsonValue} :
    (∃ segments, StepRef.parsePath target path = .ok segments) ↔
      ∀ value, path = some value → ∃ items, value = .list items ∧
        ∀ item ∈ items, (∃ key, item = .str key) ∨ ∃ position, item = .int position := by
  unfold StepRef.parsePath
  split
  · exact ⟨fun _ => nofun, fun _ => ⟨[], rfl⟩⟩
  · next items =>
      simp only [← @parseSegment_eq_ok_iff target]
      constructor
      · rintro ⟨segments, hsegments⟩ value hvalue
        refine ⟨items, (Option.some.inj hvalue).symm, fun item hitem => ?_⟩
        obtain ⟨segment, -, hsegment⟩ := exists_right_of_forall₂ (mapM_eq_ok_iff.mp hsegments) hitem
        exact ⟨segment, hsegment⟩
      · intro h
        obtain ⟨items', heq, hitems⟩ := h _ rfl
        cases heq
        cases hsegments : items.mapM (StepRef.parseSegment target) with
        | ok segments => exact ⟨segments, rfl⟩
        | error raised =>
            obtain ⟨before, item, after, rfl, -, hitem⟩ := mapM_eq_error_iff.mp hsegments
            obtain ⟨segment, hsegment⟩ := hitems item (by simp)
            exact absurd (hsegment.symm.trans hitem) ok_ne_error
  · next other hother =>
      constructor
      · rintro ⟨segments, h⟩
        cases h
      · intro h
        obtain ⟨items, rfl, -⟩ := h _ rfl
        exact absurd rfl (hother items)

/-- A marker is read exactly when it is well formed and what it names may be an id. -/
theorem namedBy_eq_ok_iff {id : String} : namedBy interp members = .ok id ↔
    WellFormed members id ∧ 1 ≤ id.length ∧ id.length ≤ 64 := by
  constructor
  · intro h
    obtain ⟨ref, href⟩ := exists_parse h
    have hnamed := namedBy_eq_ok h
    have hstep := parse_step href
    rw [hnamed] at hstep
    obtain rfl := JsonValue.str.inj (Option.some.inj hstep)
    unfold StepRef.parse at href
    split at href
    · next hkeys =>
        rw [hnamed] at href
        dsimp only at href
        split at href
        · cases href
        · obtain ⟨path, hpath, -⟩ := bind_eq_ok_iff.mp href
          refine ⟨⟨unknownKeys_eq_nil_iff.mp hkeys, hnamed, ?_⟩, ref.step_bounds⟩
          exact parsePath_eq_ok_iff.mp ⟨path, hpath⟩
    · cases href
  · rintro ⟨hformed, hbounds⟩
    obtain ⟨path, hpath⟩ := (@parsePath_eq_ok_iff id _).mpr hformed.path
    have hne : id ≠ "" := by
      rintro rfl
      exact absurd hbounds.1 (by decide)
    unfold namedBy StepRef.parse
    rw [if_pos (unknownKeys_eq_nil_iff.mpr hformed.keys), hformed.named]
    dsimp only
    rw [if_neg hne, hpath]
    simp only [bind, Except.bind, StepRef.build, dif_pos hbounds]
    rfl

/-- Every marker inside a value is a well-formed reference to one of the ids. A well-formed marker
has no other one inside. -/
def Refers (ids : List String) (value : JsonValue) : Prop :=
  ∀ members ∈ value.markers, ∃ id ∈ ids, WellFormed members id

theorem refers_of_allRead (hread : AllRead interp value.markers)
    (hnames : ∀ id, Names value id → id ∈ ids) : Refers ids value := by
  intro members hmembers
  obtain ⟨id, hid⟩ := hread members hmembers
  exact ⟨id, hnames id ⟨members, hmembers, namedBy_eq_ok hid⟩, (namedBy_eq_ok_iff.mp hid).1⟩

section Ids
variable (hids : ∀ id ∈ ids, 1 ≤ id.length ∧ id.length ≤ 64)
include hids

theorem Refers.allRead (h : Refers ids value) : AllRead interp value.markers := by
  intro members hmembers
  obtain ⟨id, hid, hformed⟩ := h members hmembers
  exact ⟨id, namedBy_eq_ok_iff.mpr ⟨hformed, hids id hid⟩⟩

omit hids in
theorem Refers.mem (h : Refers ids value) {id : String} (hid : Names value id) : id ∈ ids := by
  obtain ⟨members, hmembers, hnamed⟩ := hid
  obtain ⟨id', hid', hformed⟩ := h members hmembers
  obtain rfl := JsonValue.str.inj (Option.some.inj (hnamed.symm.trans hformed.named))
  exact hid'

end Ids

/-! ### What resolving follows -/

section Resolve
variable {outputs outputs' : List (String × JsonValue)} {owner : Option String}

/-- The outputs agree on whatever the markers of a list name. -/
def Agree (outputs outputs' : List (String × JsonValue))
    (found : List (List (String × JsonValue))) : Prop :=
  ∀ id, (∃ members ∈ found, members.lookup StepRef.fromKey = some (.str id)) →
    outputs.lookup id = outputs'.lookup id

theorem Agree.of_append {first others : List (List (String × JsonValue))}
    (h : Agree outputs outputs' (first ++ others)) :
    Agree outputs outputs' first ∧ Agree outputs outputs' others :=
  ⟨fun id ⟨members, hmembers, hnamed⟩ => h id ⟨members, List.mem_append_left _ hmembers, hnamed⟩,
    fun id ⟨members, hmembers, hnamed⟩ => h id ⟨members, List.mem_append_right _ hmembers, hnamed⟩⟩

mutual

/-- Resolving a value reads the outputs of the steps that its markers name only. -/
theorem resolve_congr : ∀ value : JsonValue, Agree outputs outputs' value.markers →
    ReferenceWalker.resolve interp outputs owner value =
      ReferenceWalker.resolve interp outputs' owner value
  | .null, _ | .bool _, _ | .int _, _ | .float _, _ | .str _, _ => by
      simp only [ReferenceWalker.resolve]
  | .list items, h => by
      rw [JsonValue.markers] at h
      rw [ReferenceWalker.resolve, ReferenceWalker.resolve, resolveItems_congr items h]
  | .dict fields, h => by
      rw [JsonValue.markers] at h
      rw [ReferenceWalker.resolve, ReferenceWalker.resolve]
      cases hmarker : StepRef.marker (.dict fields) with
      | some members =>
          rw [hmarker] at h
          dsimp only
          cases href : StepRef.parse interp members with
          | error raised => rfl
          | ok ref =>
              change ReferenceWalker.dereference interp outputs owner ref =
                ReferenceWalker.dereference interp outputs' owner ref
              unfold ReferenceWalker.dereference
              rw [h ref.step ⟨members, List.mem_singleton_self members, parse_step href⟩]
      | none =>
          rw [hmarker] at h
          dsimp only
          rw [resolveFields_congr fields h]

theorem resolveItems_congr : ∀ items : List JsonValue,
    Agree outputs outputs' (JsonValue.itemsMarkers items) →
    ReferenceWalker.resolveItems interp outputs owner items =
      ReferenceWalker.resolveItems interp outputs' owner items
  | [], _ => by rw [ReferenceWalker.resolveItems, ReferenceWalker.resolveItems]
  | item :: rest, h => by
      rw [JsonValue.itemsMarkers] at h
      rw [ReferenceWalker.resolveItems, ReferenceWalker.resolveItems,
        resolve_congr item h.of_append.1, resolveItems_congr rest h.of_append.2]

theorem resolveFields_congr : ∀ fields : List (String × JsonValue),
    Agree outputs outputs' (JsonValue.fieldsMarkers fields) →
    ReferenceWalker.resolveFields interp outputs owner fields =
      ReferenceWalker.resolveFields interp outputs' owner fields
  | [], _ => by rw [ReferenceWalker.resolveFields, ReferenceWalker.resolveFields]
  | (_, value) :: rest, h => by
      rw [JsonValue.fieldsMarkers] at h
      rw [ReferenceWalker.resolveFields, ReferenceWalker.resolveFields,
        resolve_congr value h.of_append.1, resolveFields_congr rest h.of_append.2]

end

end Resolve

/-! ### Exactly the programs that can be scheduled -/

/-- The step of the first id waits for the second one. -/
def Waits (steps : List ToolProgramStep) (id id' : String) : Prop :=
  ∃ step ∈ steps, step.id = id ∧ DependsOn step id'

/-- What a program needs to be scheduled. -/
structure Compilable (authorizedToolNames : List String) (limits : ToolProgramLimits)
    (program : RunToolProgramInput) : Prop where
  pos : 1 ≤ program.steps.length
  length_le : program.steps.length ≤ limits.maxSteps
  nodup : (program.steps.map (·.id)).Nodup
  authorized : ∀ step ∈ program.steps, step.tool ∈ authorizedToolNames
  refers : ∀ step ∈ program.steps, Refers (program.steps.map (·.id)) (.dict step.arguments)
  dependsOn : ∀ step ∈ program.steps, ∀ id ∈ step.dependsOn, id ∈ program.steps.map (·.id)
  projection : Refers (program.steps.map (·.id)) program.result
  acyclic : ∀ id, ¬ Relation.TransGen (Waits program.steps) id id

/-- The layers hold every step once, after all steps it waits for, and whatever resolving the
arguments of a step follows is among these. -/
structure Exact (interp : Interpreter) (program : RunToolProgramInput) (plan : ToolProgramPlan) :
    Prop where
  once : plan.layers.flatten.Perm program.steps
  ordered : ∀ before layer after, plan.layers = before ++ layer :: after → ∀ step ∈ layer,
    ∀ id, DependsOn step id → id ∈ before.flatten.map (·.id)
  counted : ∀ step ∈ program.steps, ∀ outputs outputs' owner,
    (∀ id, DependsOn step id → outputs.lookup id = outputs'.lookup id) →
      ReferenceWalker.resolve interp outputs owner (.dict step.arguments) =
        ReferenceWalker.resolve interp outputs' owner (.dict step.arguments)

theorem Scheduled.exact (h : Scheduled interp authorizedToolNames program plan) :
    Exact interp program plan where
  once := h.steps_eq ▸ h.perm
  ordered := h.waits
  counted _ _ _ _ _ hagree :=
    resolve_congr _ fun id hnames => hagree id (.inr hnames)

/-- Layers in order leave no room for a cycle. -/
theorem Scheduled.acyclic (h : Scheduled interp authorizedToolNames program plan) (id : String) :
    ¬ Relation.TransGen (Waits plan.steps) id id := by
  have hnodup : (plan.layers.flatten.map (·.id)).Nodup := (h.perm.map _).nodup_iff.mpr h.nodup
  -- along the layers, a step stands behind all that it waits for
  have hearlier {a b : String} (hwaits : Waits plan.steps a b) :
      (plan.layers.flatten.map (·.id)).idxOf b < (plan.layers.flatten.map (·.id)).idxOf a := by
    obtain ⟨step, hstep, rfl, hdepends⟩ := hwaits
    obtain ⟨layer, hlayer, hin⟩ := List.mem_flatten.mp (h.perm.mem_iff.mpr hstep)
    obtain ⟨before, after, hsplit⟩ := List.append_of_mem hlayer
    have hbefore := h.waits before layer after hsplit step hin b hdepends
    rw [hsplit, List.flatten_append, List.map_append] at hnodup ⊢
    have hlater : step.id ∉ before.flatten.map (·.id) := by
      refine fun hmem => (List.nodup_append.mp hnodup).2.2 step.id hmem step.id ?_ rfl
      exact List.mem_map_of_mem (List.mem_flatten.mpr ⟨layer, List.mem_cons_self, hin⟩)
    rw [List.idxOf_append_of_mem hbefore, List.idxOf_append_of_notMem hlater]
    exact Nat.lt_add_right _ (List.idxOf_lt_length_iff.mpr hbefore)
  have hdecreasing {a b : String} (hpath : Relation.TransGen (Waits plan.steps) a b) :
      (plan.layers.flatten.map (·.id)).idxOf b < (plan.layers.flatten.map (·.id)).idxOf a := by
    induction hpath with
    | single hwaits => exact hearlier hwaits
    | tail _ hwaits ih => exact (hearlier hwaits).trans ih
  exact fun hcycle => Nat.lt_irrefl _ (hdecreasing hcycle)

theorem projection_of_edges {projection : JsonValue} {waits : List (ToolProgramStep × List String)}
    (h : ToolProgramPlan.edges interp steps projection = .ok waits) {id : String}
    (hid : Names projection id) : id ∈ steps.map (·.id) := by
  unfold ToolProgramPlan.edges at h
  obtain ⟨waits', -, h⟩ := bind_eq_ok_iff.mp h
  obtain ⟨projected, hprojected, h⟩ := bind_eq_ok_iff.mp h
  by_contra hunknown
  have hmem : id ∈ sorted (projected.filter fun target => target ∉ steps.map (·.id)) := by
    refine (List.perm_insertionSort _ _).mem_iff.mpr (List.mem_filter.mpr ⟨?_, ?_⟩)
    · exact (targets_mem_iff hprojected id).mpr hid
    · exact decide_eq_true hunknown
  split at h
  · cases h
  · next hnil =>
      rw [hnil] at hmem
      cases hmem

theorem compilable_of_ok
    (h : ToolProgramPlan.compile interp authorizedToolNames limits program = .ok plan) :
    Compilable authorizedToolNames limits program := by
  have hscheduled := compile_scheduled h
  unfold ToolProgramPlan.compile at h
  obtain ⟨steps, hindexed, h⟩ := bind_eq_ok_iff.mp h
  obtain ⟨_, hauthorize, h⟩ := bind_eq_ok_iff.mp h
  obtain ⟨waits, hwaits, -⟩ := bind_eq_ok_iff.mp h
  obtain ⟨rfl, hadmitted⟩ := admitted_of_ok hindexed hauthorize
  obtain ⟨-, -, hknown, hprojection⟩ := edges_eq_ok hwaits
  have hsteps := hscheduled.steps_eq
  constructor
  case pos => exact List.length_pos_of_ne_nil hadmitted.ne_nil
  case length_le => exact hadmitted.length_le
  case nodup => exact hsteps ▸ hscheduled.nodup
  case authorized => exact hadmitted.authorized
  case refers =>
    exact fun step hstep => refers_of_allRead (hknown step hstep).1 fun id hid =>
      ((hknown step hstep).2 id (.inr hid)).1
  case dependsOn => exact fun step hstep id hid => ((hknown step hstep).2 id (.inl hid)).1
  case projection =>
    exact refers_of_allRead hprojection fun id hid => projection_of_edges hwaits hid
  case acyclic => exact hsteps ▸ hscheduled.acyclic

theorem exists_edges {projection : JsonValue}
    (hknown : ∀ step ∈ steps, ReferencesKnown interp (steps.map (·.id)) step)
    (hread : AllRead interp projection.markers)
    (hnames : ∀ id, Names projection id → id ∈ steps.map (·.id)) :
    ∃ waits, ToolProgramPlan.edges interp steps projection = .ok waits := by
  obtain ⟨projected, hprojected⟩ := exists_targets hread
  have hnil : sorted (projected.filter fun target => target ∉ steps.map (·.id)) = [] := by
    refine List.Perm.eq_nil ((List.perm_insertionSort _ _).trans ?_)
    rw [List.filter_eq_nil_iff.mpr fun id hid => ?_]
    simpa using hnames id ((targets_mem_iff hprojected id).mp hid)
  unfold ToolProgramPlan.edges
  cases hwaits : steps.mapM (ToolProgramPlan.edgesOf interp (steps.map (·.id))) with
  | ok waits =>
      simp only [bind, Except.bind, hwaits, hprojected, hnil]
      exact ⟨waits, rfl⟩
  | error raised =>
      obtain ⟨before, step, after, hsplit, -, hstep⟩ := mapM_eq_error_iff.mp hwaits
      obtain ⟨wait, hwait⟩ := exists_edgesOf (hknown step (by simp [hsplit]))
      exact absurd (hwait.symm.trans hstep) ok_ne_error

theorem duplicate_eq_none {seen : List String} (hnodup : (steps.map (·.id)).Nodup)
    (hseen : ∀ step ∈ steps, step.id ∉ seen) : ToolProgramPlan.duplicate seen steps = none := by
  induction steps generalizing seen with
  | nil => rfl
  | cons step rest ih =>
      obtain ⟨hnew, hrest⟩ := List.nodup_cons.mp hnodup
      rw [ToolProgramPlan.duplicate, if_neg (hseen step List.mem_cons_self)]
      refine ih hrest fun other hother hmem => ?_
      obtain heq | hold := List.mem_cons.mp hmem
      · exact hnew (List.mem_map.mpr ⟨other, hother, heq⟩)
      · exact hseen other (List.mem_cons_of_mem _ hother) hold

theorem Compilable.exists_plan (h : Compilable authorizedToolNames limits program) :
    ∃ plan, ToolProgramPlan.compile interp authorizedToolNames limits program = .ok plan := by
  have hbounds : ∀ id ∈ program.steps.map (·.id), 1 ≤ id.length ∧ id.length ≤ 64 := by
    intro id hid
    obtain ⟨step, -, rfl⟩ := List.mem_map.mp hid
    exact step.id_bounds
  have hduplicate : ToolProgramPlan.duplicate [] program.steps = none :=
    duplicate_eq_none h.nodup fun _ _ => List.not_mem_nil
  have hadmitted : Admitted authorizedToolNames limits program.steps :=
    ⟨List.ne_nil_of_length_pos h.pos, h.length_le, hduplicate, h.authorized⟩
  have hmem {step : ToolProgramStep} (hstep : step ∈ program.steps) {id : String}
      (hid : DependsOn step id) : id ∈ program.steps.map (·.id) :=
    hid.elim (h.dependsOn step hstep id) (h.refers step hstep).mem
  have hknown (step : ToolProgramStep) (hstep : step ∈ program.steps) :
      ReferencesKnown interp (program.steps.map (·.id)) step := by
    refine ⟨(h.refers step hstep).allRead hbounds, fun id hid => ⟨hmem hstep hid, ?_⟩⟩
    rintro rfl
    exact h.acyclic step.id (.single ⟨step, hstep, rfl, hid⟩)
  obtain ⟨waits, hwaits⟩ := exists_edges hknown (h.projection.allRead hbounds) fun id =>
    h.projection.mem
  obtain ⟨hsteps, hneeds, -, -⟩ := edges_eq_ok hwaits
  have hcycle (id : String) : ¬ Relation.TransGen
      (WaitsFor (fun wait : ToolProgramStep × List String => wait.1.id) Prod.snd waits) id id := by
    refine fun hpath => h.acyclic id (Relation.TransGen.mono ?_ _ _ hpath)
    rintro a b ⟨wait, hwait, rfl, hb⟩
    exact ⟨wait.1, hsteps ▸ List.mem_map_of_mem hwait, rfl, (hneeds wait hwait b).mp hb⟩
  have hclosed : ∀ wait ∈ waits, ∀ id ∈ wait.2,
      id ∈ ([] : List String) ∨ id ∈ waits.map fun wait => wait.1.id := by
    intro wait hwait id hid
    have hstep : wait.1 ∈ program.steps := hsteps ▸ List.mem_map_of_mem hwait
    have hknown := hmem hstep ((hneeds wait hwait id).mp hid)
    rw [← hsteps, List.map_map] at hknown
    exact .inr hknown
  obtain ⟨layers, hlayers⟩ :=
    exists_layering hcycle byId_perm waits.length (List.Subset.refl waits) hclosed
  unfold ToolProgramPlan.compile
  simp only [hadmitted.indexed, hadmitted.authorize, hwaits, bind, Except.bind,
    ToolProgramPlan.layered, hlayers]
  exact ⟨_, rfl⟩

/-- The program compiles to an exact plan, or cannot be scheduled and is refused with a typed
error. -/
def CompilesExactly (interp : Interpreter) (authorizedToolNames : List String)
    (limits : ToolProgramLimits) (program : RunToolProgramInput) : Prop :=
  (Compilable authorizedToolNames limits program → ∃ plan,
    ToolProgramPlan.compile interp authorizedToolNames limits program = .ok plan ∧
      Exact interp program plan) ∧
  (¬ Compilable authorizedToolNames limits program → ∃ error,
    ToolProgramPlan.compile interp authorizedToolNames limits program = .error (.toolProgram error))

/-- Compiling is exact unless it reads a marker whose name is longer than any id. -/
theorem compilesExactly_iff : CompilesExactly interp authorizedToolNames limits program ↔
    ¬ ReadsOverlong interp authorizedToolNames limits program := by
  rw [← untyped_compile_iff]
  constructor
  · rintro ⟨haccepts, hrefuses⟩ ⟨raised, hraised, huntyped⟩
    by_cases hcompilable : Compilable authorizedToolNames limits program
    · obtain ⟨plan, hplan, -⟩ := haccepts hcompilable
      exact ok_ne_error (hplan.symm.trans hraised)
    · obtain ⟨error, herror⟩ := hrefuses hcompilable
      obtain rfl := Except.error.inj (herror.symm.trans hraised)
      cases huntyped
  · intro htyped
    refine ⟨fun hcompilable => ?_, fun hnot => ?_⟩
    · obtain ⟨plan, hplan⟩ :
          ∃ plan, ToolProgramPlan.compile interp authorizedToolNames limits program = .ok plan :=
        hcompilable.exists_plan
      exact ⟨plan, hplan, (compile_scheduled hplan).exact⟩
    · cases hresult : ToolProgramPlan.compile interp authorizedToolNames limits program with
      | ok plan => exact absurd (compilable_of_ok hresult) hnot
      | error raised =>
          cases raised with
          | toolProgram error => exact ⟨error, rfl⟩
          | uncaught exception => exact absurd ⟨_, hresult, rfl⟩ htyped

/-- The interpreter walks a set in the order in which its members were listed. -/
def listedOrder : Interpreter where
  repr text := text
  walk := List.dedup
  nodup_walk := List.nodup_dedup
  mem_walk _ _ := List.mem_dedup

def oneStep : ToolProgramLimits where
  maxSteps := 1
  maxConcurrency := 1
  wallClockMs := 1
  maxTotalOutputBytes := 1
  maxResultBytes := 1

/-- The result asks for a step by a name of sixty-five letters. -/
def overlongProgram : RunToolProgramInput where
  steps := [{ id := "a", tool := "read" }]
  result := .dict [("$from", .str (String.ofList (List.replicate 65 'a')))]

theorem compile_inexact : ¬ CompilesExactly listedOrder ["read"] oneStep overlongProgram := by
  rintro ⟨-, hrefuses⟩
  have hraised : ToolProgramPlan.compile listedOrder ["read"] oneStep overlongProgram =
      .error (.uncaught .validationError) := by rfl
  have hnot : ¬ Compilable ["read"] oneStep overlongProgram := by
    intro hcompilable
    obtain ⟨id, hid, hformed⟩ := hcompilable.projection _ (List.mem_singleton_self _)
    obtain rfl := JsonValue.str.inj (Option.some.inj hformed.named)
    exact absurd hid (by decide)
  obtain ⟨error, herror⟩ := hrefuses hnot
  cases Except.error.inj (hraised.symm.trans herror)

end CopilotRuntime.ToolProgram
