import CopilotRuntime.ToolProgram.Plan

/-!
# What a compiled plan promises

A plan that compiles runs every step of its program once, in a layer after the layers of
all the steps it waits for, and resolving a reference of it raises nothing but a typed
error. Compiling raises an exception that is not typed exactly where it reads a marker
whose name is longer than any id.
-/

namespace CopilotRuntime.ToolProgram

open Foundation

variable {interp : Interpreter}

/-! ### Markers -/

namespace JsonValue

mutual

/-- The reference markers inside a value, in the order they are read. -/
def markers : JsonValue → List (List (String × JsonValue))
  | dict fields =>
      match StepRef.marker (dict fields) with
      | some members => [members]
      | none => fieldsMarkers fields
  | list items => itemsMarkers items
  | _ => []

def itemsMarkers : List JsonValue → List (List (String × JsonValue))
  | [] => []
  | item :: rest => markers item ++ itemsMarkers rest

def fieldsMarkers : List (String × JsonValue) → List (List (String × JsonValue))
  | [] => []
  | (_, value) :: rest => markers value ++ fieldsMarkers rest

end

end JsonValue

/-- The step a marker names. -/
def namedBy (interp : Interpreter) (members : List (String × JsonValue)) : Except Raised String :=
  (StepRef.parse interp members).map StepRef.step

theorem parse_map_step (members : List (String × JsonValue)) :
    (do let ref ← StepRef.parse interp members; pure [ref.step]) =
      [members].mapM (namedBy interp) := by
  rw [List.mapM_cons, List.mapM_nil, namedBy]
  cases StepRef.parse interp members with
  | ok ref => rfl
  | error raised => rfl

mutual

/-- The targets of a value are what its markers name. -/
theorem targets_eq : ∀ value : JsonValue,
    ReferenceWalker.targets interp value = value.markers.mapM (namedBy interp)
  | .null | .bool _ | .int _ | .float _ | .str _ => by
      simp [ReferenceWalker.targets, JsonValue.markers, pure, Except.pure]
  | .list items => by
      rw [ReferenceWalker.targets, JsonValue.markers, targetsItems_eq items]
  | .dict fields => by
      rw [ReferenceWalker.targets, JsonValue.markers]
      cases StepRef.marker (.dict fields) with
      | some members => exact parse_map_step members
      | none => exact targetsFields_eq fields

theorem targetsItems_eq : ∀ items : List JsonValue,
    ReferenceWalker.targetsItems interp items =
      (JsonValue.itemsMarkers items).mapM (namedBy interp)
  | [] => by simp [ReferenceWalker.targetsItems, JsonValue.itemsMarkers, pure, Except.pure]
  | item :: rest => by
      rw [ReferenceWalker.targetsItems, JsonValue.itemsMarkers, List.mapM_append,
        targets_eq item, targetsItems_eq rest]

theorem targetsFields_eq : ∀ fields : List (String × JsonValue),
    ReferenceWalker.targetsFields interp fields =
      (JsonValue.fieldsMarkers fields).mapM (namedBy interp)
  | [] => by simp [ReferenceWalker.targetsFields, JsonValue.fieldsMarkers, pure, Except.pure]
  | (_, value) :: rest => by
      rw [ReferenceWalker.targetsFields, JsonValue.fieldsMarkers, List.mapM_append,
        targets_eq value, targetsFields_eq rest]

end

theorem build_step {step : String} {path : List Segment} {ref : StepRef}
    (h : StepRef.build step path = .ok ref) : ref.step = step := by
  unfold StepRef.build at h
  split at h
  · cases h
    rfl
  · cases h

variable {members : List (String × JsonValue)}

/-- A marker that is read names the step its member names. -/
theorem parse_step {ref : StepRef} (h : StepRef.parse interp members = .ok ref) :
    members.lookup StepRef.fromKey = some (.str ref.step) := by
  unfold StepRef.parse at h
  split at h
  · split at h
    · rename_i target htarget
      split at h
      · cases h
      · obtain ⟨path, -, hbuild⟩ := bind_eq_ok_iff.mp h
        rw [htarget, build_step hbuild]
    · cases h
  · cases h

/-- The steps that the markers inside a value name. -/
def Names (value : JsonValue) (id : String) : Prop :=
  ∃ members ∈ value.markers, members.lookup StepRef.fromKey = some (.str id)

theorem namedBy_eq_ok {id : String} (h : namedBy interp members = .ok id) :
    members.lookup StepRef.fromKey = some (.str id) := by
  unfold namedBy at h
  cases href : StepRef.parse interp members with
  | error raised => rw [href] at h; cases h
  | ok ref =>
      rw [href] at h
      cases h
      exact parse_step href

variable {value : JsonValue} {ids : List String}

theorem targets_mem_iff (h : ReferenceWalker.targets interp value = .ok ids) (id : String) :
    id ∈ ids ↔ Names value id := by
  rw [targets_eq, mapM_eq_ok_iff] at h
  constructor
  · intro hid
    obtain ⟨members, hmembers, hname⟩ := exists_left_of_forall₂ h hid
    exact ⟨members, hmembers, namedBy_eq_ok hname⟩
  · rintro ⟨members, hmembers, hlookup⟩
    obtain ⟨other, hother, hname⟩ := exists_right_of_forall₂ h hmembers
    have heq := (namedBy_eq_ok hname).symm.trans hlookup
    cases heq
    exact hother

/-! ### Resolving -/

/-- What is raised, if anything is, is a typed error. -/
def RaisesTyped {α : Type} (x : Except Raised α) : Prop :=
  ∀ raised, x = .error raised → raised.isTyped = true

theorem raisesTyped_ok {α : Type} (a : α) : RaisesTyped (.ok a : Except Raised α) := by
  intro raised h
  cases h

theorem RaisesTyped.bind {α β : Type} {x : Except Raised α} {f : α → Except Raised β}
    (hx : RaisesTyped x) (hf : ∀ a, RaisesTyped (f a)) : RaisesTyped (x >>= f) := by
  cases x with
  | ok a => exact hf a
  | error raised =>
      intro raised' h
      cases h
      exact hx raised rfl

theorem descendAll_typed (ref : StepRef) (owner : Option String) (path : List Segment)
    (depth : Nat) (current : JsonValue) :
    RaisesTyped (ReferenceWalker.descendAll interp ref owner depth current path) := by
  induction path generalizing depth current with
  | nil => exact raisesTyped_ok current
  | cons segment rest ih =>
      apply RaisesTyped.bind
      · unfold ReferenceWalker.descend
        split
        · exact raisesTyped_ok _
        · intro raised h
          cases h
          rfl
      · intro next
        exact ih (depth + 1) next

theorem dereference_typed (outputs : List (String × JsonValue)) (owner : Option String)
    (ref : StepRef) : RaisesTyped (ReferenceWalker.dereference interp outputs owner ref) := by
  unfold ReferenceWalker.dereference
  split
  · exact descendAll_typed ref owner ref.path 0 _
  · intro raised h
    cases h
    rfl

/-- Every marker of the list is read. -/
def AllRead (interp : Interpreter) (found : List (List (String × JsonValue))) : Prop :=
  ∀ members ∈ found, ∃ id, namedBy interp members = .ok id

theorem exists_parse {id : String} (h : namedBy interp members = .ok id) :
    ∃ ref, StepRef.parse interp members = .ok ref := by
  unfold namedBy at h
  cases href : StepRef.parse interp members with
  | ok ref => exact ⟨ref, rfl⟩
  | error raised => rw [href] at h; cases h

theorem allRead_of_targets (h : ReferenceWalker.targets interp value = .ok ids) :
    AllRead interp value.markers := by
  rw [targets_eq, mapM_eq_ok_iff] at h
  intro members hmembers
  obtain ⟨id, -, hid⟩ := exists_right_of_forall₂ h hmembers
  exact ⟨id, hid⟩

section Typed
variable (outputs : List (String × JsonValue)) (owner : Option String)

mutual

/-- A value whose markers are all read resolves, or raises a typed error. -/
theorem resolve_typed : ∀ value : JsonValue, AllRead interp value.markers →
    RaisesTyped (ReferenceWalker.resolve interp outputs owner value)
  | .null, _ | .bool _, _ | .int _, _ | .float _, _ | .str _, _ => by
      rw [ReferenceWalker.resolve]
      · exact raisesTyped_ok _
      all_goals
        intros
        exact absurd ‹_› JsonValue.noConfusion
  | .list items, h => by
      rw [ReferenceWalker.resolve]
      rw [JsonValue.markers] at h
      exact (resolveItems_typed items h).bind fun resolved => raisesTyped_ok _
  | .dict fields, h => by
      rw [ReferenceWalker.resolve]
      rw [JsonValue.markers] at h
      cases hmarker : StepRef.marker (.dict fields) with
      | some members =>
          rw [hmarker] at h
          obtain ⟨id, hid⟩ := h members (List.mem_singleton_self members)
          obtain ⟨ref, href⟩ := exists_parse hid
          dsimp only
          rw [href]
          exact dereference_typed outputs owner ref
      | none =>
          rw [hmarker] at h
          exact (resolveFields_typed fields h).bind fun resolved => raisesTyped_ok _

theorem resolveItems_typed : ∀ items : List JsonValue,
    AllRead interp (JsonValue.itemsMarkers items) →
    RaisesTyped (ReferenceWalker.resolveItems interp outputs owner items)
  | [], _ => by
      rw [ReferenceWalker.resolveItems]
      exact raisesTyped_ok []
  | item :: rest, h => by
      rw [ReferenceWalker.resolveItems]
      rw [JsonValue.itemsMarkers] at h
      apply (resolve_typed item fun m hm => h m (List.mem_append_left _ hm)).bind
      intro first
      exact (resolveItems_typed rest fun m hm => h m (List.mem_append_right _ hm)).bind
        fun others => raisesTyped_ok _

theorem resolveFields_typed : ∀ fields : List (String × JsonValue),
    AllRead interp (JsonValue.fieldsMarkers fields) →
    RaisesTyped (ReferenceWalker.resolveFields interp outputs owner fields)
  | [], _ => by
      rw [ReferenceWalker.resolveFields]
      exact raisesTyped_ok []
  | (_, value) :: rest, h => by
      rw [ReferenceWalker.resolveFields]
      rw [JsonValue.fieldsMarkers] at h
      apply (resolve_typed value fun m hm => h m (List.mem_append_left _ hm)).bind
      intro first
      exact (resolveFields_typed rest fun m hm => h m (List.mem_append_right _ hm)).bind
        fun others => raisesTyped_ok _

end

end Typed

/-! ### The steps a step waits for -/

/-- The step waits for another one, by a reference or because it says so. -/
def DependsOn (step : ToolProgramStep) (id : String) : Prop :=
  id ∈ step.dependsOn ∨ Names (.dict step.arguments) id

/-- Every marker of the step is read, and it waits for other steps of the program only. -/
def ReferencesKnown (interp : Interpreter) (ids : List String) (step : ToolProgramStep) : Prop :=
  AllRead interp (JsonValue.dict step.arguments).markers ∧
    ∀ id, DependsOn step id → id ∈ ids ∧ id ≠ step.id

theorem exists_targets (h : AllRead interp value.markers) :
    ∃ ids, ReferenceWalker.targets interp value = .ok ids := by
  cases htargets : ReferenceWalker.targets interp value with
  | ok ids => exact ⟨ids, rfl⟩
  | error raised =>
      rw [targets_eq] at htargets
      obtain ⟨before, members, after, hsplit, -, hmembers⟩ := mapM_eq_error_iff.mp htargets
      obtain ⟨id, hid⟩ := h members (by simp [hsplit])
      exact absurd (hid.symm.trans hmembers) ok_ne_error

variable {step : ToolProgramStep}

theorem edgesOf_eq_ok {wait : ToolProgramStep × List String}
    (h : ToolProgramPlan.edgesOf interp ids step = .ok wait) :
    wait.1 = step ∧ (∀ id, id ∈ wait.2 ↔ DependsOn step id) ∧ ReferencesKnown interp ids step := by
  unfold ToolProgramPlan.edgesOf at h
  obtain ⟨named, hnamed, h⟩ := bind_eq_ok_iff.mp h
  have hmem : ∀ id, id ∈ interp.walk (step.dependsOn ++ named) ↔ DependsOn step id := by
    intro id
    rw [interp.mem_walk, List.mem_append, targets_mem_iff hnamed, DependsOn]
  dsimp only at h
  split at h
  · split at h <;> cases h
  · rename_i hfind
    cases h
    refine ⟨rfl, hmem, allRead_of_targets hnamed, ?_⟩
    intro id hid
    have hnot := List.find?_eq_none.mp hfind id ((hmem id).mpr hid)
    simpa using hnot

theorem exists_edgesOf (h : ReferencesKnown interp ids step) :
    ∃ wait, ToolProgramPlan.edgesOf interp ids step = .ok wait := by
  obtain ⟨named, hnamed⟩ := exists_targets h.1
  unfold ToolProgramPlan.edgesOf
  rw [hnamed]
  have hfind : (interp.walk (step.dependsOn ++ named)).find?
      (fun target => target ∉ ids ∨ target = step.id) = none := by
    rw [List.find?_eq_none]
    intro id hid
    rw [interp.mem_walk, List.mem_append, targets_mem_iff hnamed] at hid
    simpa using h.2 id hid
  simp only [bind, Except.bind, hfind]
  exact ⟨_, rfl⟩

variable {steps : List ToolProgramStep} {waits : List (ToolProgramStep × List String)}

theorem map_fst_of_edgesOf (h : List.Forall₂ (fun step wait => ToolProgramPlan.edgesOf interp ids step = .ok wait)
      steps waits) : waits.map Prod.fst = steps := by
  induction h with
  | nil => rfl
  | cons hfirst _ ih => rw [List.map_cons, ih, (edgesOf_eq_ok hfirst).1]

theorem edges_eq_ok {projection : JsonValue}
    (h : ToolProgramPlan.edges interp steps projection = .ok waits) :
    waits.map Prod.fst = steps ∧
      (∀ wait ∈ waits, ∀ id, id ∈ wait.2 ↔ DependsOn wait.1 id) ∧
      (∀ step ∈ steps, ReferencesKnown interp (steps.map (·.id)) step) ∧
      AllRead interp projection.markers := by
  unfold ToolProgramPlan.edges at h
  obtain ⟨waits', hwaits, h⟩ := bind_eq_ok_iff.mp h
  obtain ⟨projected, hprojected, h⟩ := bind_eq_ok_iff.mp h
  have heq : waits' = waits := by
    split at h
    · cases h
    · cases h
      rfl
  subst heq
  rw [mapM_eq_ok_iff] at hwaits
  refine ⟨?_, ?_, ?_, allRead_of_targets hprojected⟩
  · exact map_fst_of_edgesOf hwaits
  · intro wait hwait id
    obtain ⟨step, -, hstep⟩ := exists_left_of_forall₂ hwaits hwait
    obtain ⟨rfl, hmem, -⟩ := edgesOf_eq_ok hstep
    exact hmem id
  · intro step hstep
    obtain ⟨wait, -, hwait⟩ := exists_right_of_forall₂ hwaits hstep
    exact (edgesOf_eq_ok hwait).2.2

/-! ### What compiling promises -/

theorem nodup_of_duplicate {seen : List String} (h : ToolProgramPlan.duplicate seen steps = none) :
    (steps.map (·.id)).Nodup ∧ ∀ step ∈ steps, step.id ∉ seen := by
  induction steps generalizing seen with
  | nil => simp
  | cons step rest ih =>
      unfold ToolProgramPlan.duplicate at h
      split at h
      · cases h
      · rename_i hnew
        obtain ⟨hnodup, hseen⟩ := ih h
        constructor
        · rw [List.map_cons, List.nodup_cons]
          refine ⟨?_, hnodup⟩
          intro hmem
          obtain ⟨other, hother, heq⟩ := List.mem_map.mp hmem
          exact hseen other hother (heq ▸ List.mem_cons_self)
        · rintro other hother
          rcases List.mem_cons.mp hother with rfl | hlater
          · exact hnew
          · exact fun hin => hseen other hlater (List.mem_cons_of_mem _ hin)

/-- The limits and the tools of the executor admit the steps. -/
structure Admitted (authorizedToolNames : List String) (limits : ToolProgramLimits)
    (steps : List ToolProgramStep) : Prop where
  ne_nil : steps ≠ []
  length_le : steps.length ≤ limits.maxSteps
  no_duplicate : ToolProgramPlan.duplicate [] steps = none
  authorized : ∀ step ∈ steps, step.tool ∈ authorizedToolNames

variable {authorizedToolNames : List String} {limits : ToolProgramLimits}
  {program : RunToolProgramInput}

theorem Admitted.indexed (h : Admitted authorizedToolNames limits steps) :
    ToolProgramPlan.indexed limits steps = .ok steps := by
  unfold ToolProgramPlan.indexed
  rw [if_neg h.ne_nil, if_neg (Nat.not_lt.mpr h.length_le), h.no_duplicate]

theorem Admitted.authorize (h : Admitted authorizedToolNames limits steps) :
    ToolProgramPlan.authorize authorizedToolNames steps = .ok () := by
  have hfind : (steps.find? fun step => step.tool ∉ authorizedToolNames) = none := by
    rw [List.find?_eq_none]
    intro step hstep
    simpa using h.authorized step hstep
  unfold ToolProgramPlan.authorize
  rw [hfind]

/-- Steps that are indexed and authorized are the admitted ones. -/
theorem admitted_of_ok {steps' : List ToolProgramStep}
    (hindexed : ToolProgramPlan.indexed limits steps = .ok steps')
    (hauthorize : ToolProgramPlan.authorize authorizedToolNames steps' = .ok ()) :
    steps' = steps ∧ Admitted authorizedToolNames limits steps := by
  unfold ToolProgramPlan.indexed at hindexed
  split at hindexed
  · cases hindexed
  · rename_i hne
    split at hindexed
    · cases hindexed
    · rename_i hlength
      split at hindexed
      · cases hindexed
      · rename_i hduplicate
        cases hindexed
        refine ⟨rfl, hne, Nat.not_lt.mp hlength, hduplicate, ?_⟩
        intro step hstep
        unfold ToolProgramPlan.authorize at hauthorize
        split at hauthorize
        · cases hauthorize
        · rename_i hfind
          simpa using List.find?_eq_none.mp hfind step hstep

/-- What a plan promises the executor. -/
structure Scheduled (interp : Interpreter) (authorizedToolNames : List String)
    (program : RunToolProgramInput) (plan : ToolProgramPlan) : Prop where
  steps_eq : plan.steps = program.steps
  projection_eq : plan.projection = program.result
  ne_nil : plan.steps ≠ []
  nodup : (plan.steps.map (·.id)).Nodup
  authorized : ∀ step ∈ plan.steps, step.tool ∈ authorizedToolNames
  perm : plan.layers.flatten.Perm plan.steps
  layers_ne_nil : ∀ layer ∈ plan.layers, layer ≠ []
  waits : ∀ before layer after, plan.layers = before ++ layer :: after → ∀ step ∈ layer,
    ∀ id, DependsOn step id → id ∈ before.flatten.map (·.id)
  reads : ∀ step ∈ plan.steps, AllRead interp (JsonValue.dict step.arguments).markers
  reads_projection : AllRead interp plan.projection.markers

theorem byId_perm (waits : List (ToolProgramStep × List String)) :
    (ToolProgramPlan.byId waits).Perm waits :=
  List.perm_insertionSort _ waits

theorem layered_eq_ok {layers : List (List ToolProgramStep)}
    (h : ToolProgramPlan.layered interp waits = .ok layers) :
    ∃ waiting, layering (fun wait => wait.1.id) Prod.snd ToolProgramPlan.byId waits.length [] waits =
      .ok waiting ∧ layers = waiting.map (·.map Prod.fst) := by
  unfold ToolProgramPlan.layered at h
  split at h
  · rename_i waiting hwaiting
    cases h
    exact ⟨waiting, hwaiting, rfl⟩
  · cases h

/-- A plan that compiles schedules its program. -/
theorem compile_scheduled {plan : ToolProgramPlan}
    (h : ToolProgramPlan.compile interp authorizedToolNames limits program = .ok plan) :
    Scheduled interp authorizedToolNames program plan := by
  unfold ToolProgramPlan.compile at h
  obtain ⟨steps, hindexed, h⟩ := bind_eq_ok_iff.mp h
  obtain ⟨_, hauthorize, h⟩ := bind_eq_ok_iff.mp h
  obtain ⟨waits, hwaits, h⟩ := bind_eq_ok_iff.mp h
  obtain ⟨layers, hlayers, h⟩ := bind_eq_ok_iff.mp h
  cases h
  obtain ⟨rfl, hadmitted⟩ := admitted_of_ok hindexed hauthorize
  obtain ⟨hsteps, hmem, hknown, hprojection⟩ := edges_eq_ok hwaits
  obtain ⟨waiting, hwaiting, rfl⟩ := layered_eq_ok hlayers
  have hperm := layering_perm byId_perm (Nat.le_refl _) hwaiting
  have hflat : (waiting.map (·.map Prod.fst)).flatten = waiting.flatten.map Prod.fst :=
    List.map_flatten.symm
  constructor
  case steps_eq => rfl
  case projection_eq => rfl
  case ne_nil => exact hadmitted.ne_nil
  case nodup => exact (nodup_of_duplicate hadmitted.no_duplicate).1
  case authorized => exact hadmitted.authorized
  case perm =>
    dsimp only
    rw [hflat, ← hsteps]
    exact hperm.map Prod.fst
  case layers_ne_nil =>
    intro layer hlayer
    obtain ⟨layer', hlayer', rfl⟩ := List.mem_map.mp hlayer
    simpa using layering_ne_nil hwaiting hlayer'
  case waits =>
    rintro before layer after hsplit step hstep id hid
    obtain ⟨before', rest, rfl, rfl, hrest⟩ := List.map_eq_append_iff.mp hsplit
    obtain ⟨layer', after', rfl, rfl, rfl⟩ := List.map_eq_cons_iff.mp hrest
    obtain ⟨wait, hwait, rfl⟩ := List.mem_map.mp hstep
    have hin : wait ∈ waits := hperm.subset (by simp [hwait])
    have hearlier := layering_settled byId_perm hwaiting rfl hwait ((hmem wait hin id).mpr hid)
    rw [← List.map_flatten, List.map_map]
    exact hearlier.resolve_left (List.not_mem_nil)
  case reads => exact fun step hstep => (hknown step hstep).1
  case reads_projection => exact hprojection

/-! ### When compiling raises an exception of its own -/

/-- What is raised is not a typed error. -/
def RaisesUntyped {α : Type} (x : Except Raised α) : Prop :=
  ∃ raised, x = .error raised ∧ raised.isTyped = false

theorem RaisesTyped.not_untyped {α : Type} {x : Except Raised α} (h : RaisesTyped x) :
    ¬ RaisesUntyped x := by
  rintro ⟨raised, hraised, huntyped⟩
  rw [h raised hraised] at huntyped
  cases huntyped

theorem not_untyped_ok {α : Type} (a : α) : ¬ RaisesUntyped (.ok a : Except Raised α) :=
  (raisesTyped_ok a).not_untyped

theorem untyped_bind_iff {α β : Type} {x : Except Raised α} {f : α → Except Raised β} :
    RaisesUntyped (x >>= f) ↔ RaisesUntyped x ∨ ∃ a, x = .ok a ∧ RaisesUntyped (f a) := by
  cases x with
  | ok a =>
      constructor
      · intro h
        exact .inr ⟨a, rfl, h⟩
      · rintro (h | ⟨a', ha, h⟩)
        · exact absurd h (not_untyped_ok a)
        · cases ha
          exact h
  | error raised =>
      constructor
      · rintro ⟨raised', h, huntyped⟩
        cases h
        exact .inl ⟨raised, rfl, huntyped⟩
      · rintro (⟨raised', h, huntyped⟩ | ⟨a, ha, -⟩)
        · cases h
          exact ⟨raised, rfl, huntyped⟩
        · cases ha

theorem untyped_mapM_iff {α β : Type} {f : α → Except Raised β} {xs : List α} :
    RaisesUntyped (xs.mapM f) ↔
      ∃ before x after, xs = before ++ x :: after ∧ (∀ y ∈ before, ∃ b, f y = .ok b) ∧
        RaisesUntyped (f x) := by
  constructor
  · rintro ⟨raised, h, huntyped⟩
    obtain ⟨before, x, after, hsplit, hbefore, hx⟩ := mapM_eq_error_iff.mp h
    exact ⟨before, x, after, hsplit, hbefore, raised, hx, huntyped⟩
  · rintro ⟨before, x, after, hsplit, hbefore, raised, hx, huntyped⟩
    exact ⟨raised, mapM_eq_error_iff.mpr ⟨before, x, after, hsplit, hbefore, hx⟩, huntyped⟩

/-- A marker without a fault but for a name that is longer than any step's. -/
def Overlong (members : List (String × JsonValue)) : Prop :=
  StepRef.unknownKeys members = [] ∧
    ∃ target path, members.lookup StepRef.fromKey = some (.str target) ∧
      StepRef.parsePath target (members.lookup StepRef.pathKey) = .ok path ∧ 64 < target.length

theorem parsePath_typed (target : String) (value : Option JsonValue) :
    RaisesTyped (StepRef.parsePath target value) := by
  unfold StepRef.parsePath
  split
  · exact raisesTyped_ok []
  · intro raised h
    obtain ⟨before, x, after, -, -, hx⟩ := mapM_eq_error_iff.mp h
    unfold StepRef.parseSegment at hx
    split at hx <;> cases hx
    rfl
  · intro raised h
    cases h
    rfl

theorem untyped_build_iff {target : String} (hne : target ≠ "") (path : List Segment) :
    RaisesUntyped (StepRef.build target path) ↔ 64 < target.length := by
  have hpos : 1 ≤ target.length := by
    have := mt String.length_eq_zero_iff.mp hne
    omega
  unfold StepRef.build
  split
  · rename_i hbounds
    exact ⟨fun h => absurd h (not_untyped_ok _), fun h => absurd hbounds.2 (Nat.not_le.mpr h)⟩
  · rename_i hbounds
    exact ⟨fun _ => by omega, fun _ => ⟨_, rfl, rfl⟩⟩

theorem untyped_parse_iff :
    RaisesUntyped (StepRef.parse interp members) ↔ Overlong members := by
  unfold StepRef.parse
  split
  · rename_i hkeys
    split
    · rename_i target htarget
      split
      · rename_i hempty
        constructor
        · rintro ⟨raised, h, huntyped⟩
          cases h
          cases huntyped
        · rintro ⟨-, target', path, htarget', -, hlong⟩
          rw [htarget] at htarget'
          cases htarget'
          subst hempty
          exact absurd hlong (by decide)
      · rename_i hne
        rw [untyped_bind_iff]
        constructor
        · rintro (h | ⟨path, hpath, h⟩)
          · exact absurd h (parsePath_typed _ _).not_untyped
          · exact ⟨hkeys, target, path, htarget, hpath, (untyped_build_iff hne path).mp h⟩
        · rintro ⟨-, target', path, htarget', hpath, hlong⟩
          rw [htarget] at htarget'
          cases htarget'
          exact .inr ⟨path, hpath, (untyped_build_iff hne path).mpr hlong⟩
    · rename_i hother
      constructor
      · rintro ⟨raised, h, huntyped⟩
        cases h
        cases huntyped
      · rintro ⟨-, target, path, htarget, -⟩
        exact absurd htarget (hother target)
  · rename_i hkeys
    constructor
    · rintro ⟨raised, h, huntyped⟩
      cases h
      cases huntyped
    · rintro ⟨hnone, -⟩
      exact absurd hnone hkeys

theorem untyped_namedBy_iff :
    RaisesUntyped (namedBy interp members) ↔ Overlong members := by
  rw [← untyped_parse_iff, namedBy]
  cases StepRef.parse interp members with
  | ok ref => exact ⟨fun h => absurd h (not_untyped_ok _), fun h => absurd h (not_untyped_ok _)⟩
  | error raised =>
      constructor
      · rintro ⟨raised', h, huntyped⟩
        cases h
        exact ⟨raised, rfl, huntyped⟩
      · rintro ⟨raised', h, huntyped⟩
        cases h
        exact ⟨raised, rfl, huntyped⟩

/-- The first marker of the list that is not read has an overlong name. -/
def OverlongFirst (interp : Interpreter) (found : List (List (String × JsonValue))) : Prop :=
  ∃ before members after, found = before ++ members :: after ∧ AllRead interp before ∧
    Overlong members

theorem untyped_targets_iff :
    RaisesUntyped (ReferenceWalker.targets interp value) ↔ OverlongFirst interp value.markers := by
  rw [targets_eq, untyped_mapM_iff]
  constructor
  · rintro ⟨before, members, after, hsplit, hbefore, hmembers⟩
    exact ⟨before, members, after, hsplit, hbefore, untyped_namedBy_iff.mp hmembers⟩
  · rintro ⟨before, members, after, hsplit, hbefore, hmembers⟩
    exact ⟨before, members, after, hsplit, hbefore, untyped_namedBy_iff.mpr hmembers⟩

theorem untyped_edgesOf_iff :
    RaisesUntyped (ToolProgramPlan.edgesOf interp ids step) ↔
      OverlongFirst interp (JsonValue.dict step.arguments).markers := by
  unfold ToolProgramPlan.edgesOf
  rw [untyped_bind_iff, ← untyped_targets_iff]
  constructor
  · rintro (h | ⟨named, -, h⟩)
    · exact h
    · refine absurd h (RaisesTyped.not_untyped ?_)
      intro raised hraised
      dsimp only at hraised
      split at hraised
      · split at hraised <;> cases hraised <;> rfl
      · cases hraised
  · exact .inl

/-- Compiling reads an overlong marker: the steps are admitted, everything that is read
before the marker is in order, and the marker is one of a step or of the projection. -/
structure ReadsOverlong (interp : Interpreter) (authorizedToolNames : List String)
    (limits : ToolProgramLimits) (program : RunToolProgramInput) : Prop where
  admitted : Admitted authorizedToolNames limits program.steps
  overlong : (∃ before step after, program.steps = before ++ step :: after ∧
      (∀ s ∈ before, ReferencesKnown interp (program.steps.map (·.id)) s) ∧
      OverlongFirst interp (JsonValue.dict step.arguments).markers) ∨
    (∀ s ∈ program.steps, ReferencesKnown interp (program.steps.map (·.id)) s) ∧
      OverlongFirst interp program.result.markers

theorem untyped_edges_iff {projection : JsonValue} :
    RaisesUntyped (ToolProgramPlan.edges interp steps projection) ↔
      (∃ before step after, steps = before ++ step :: after ∧
        (∀ s ∈ before, ReferencesKnown interp (steps.map (·.id)) s) ∧
        OverlongFirst interp (JsonValue.dict step.arguments).markers) ∨
      (∀ s ∈ steps, ReferencesKnown interp (steps.map (·.id)) s) ∧
        OverlongFirst interp projection.markers := by
  have hknown : ∀ s, (∃ wait, ToolProgramPlan.edgesOf interp (steps.map (·.id)) s = .ok wait) ↔
      ReferencesKnown interp (steps.map (·.id)) s :=
    fun s => ⟨fun ⟨_, h⟩ => (edgesOf_eq_ok h).2.2, exists_edgesOf⟩
  unfold ToolProgramPlan.edges
  rw [untyped_bind_iff, untyped_mapM_iff]
  simp only [untyped_edgesOf_iff, hknown]
  apply or_congr Iff.rfl
  constructor
  · rintro ⟨waits, hwaits, h⟩
    rw [mapM_eq_ok_iff] at hwaits
    refine ⟨fun s hs => ?_, ?_⟩
    · obtain ⟨wait, -, hwait⟩ := exists_right_of_forall₂ hwaits hs
      exact (hknown s).mp ⟨wait, hwait⟩
    · rcases untyped_bind_iff.mp h with htargets | ⟨projected, -, h⟩
      · exact untyped_targets_iff.mp htargets
      · refine absurd h (RaisesTyped.not_untyped ?_)
        intro raised hraised
        split at hraised <;> cases hraised
        rfl
  · rintro ⟨hsteps, hprojection⟩
    cases hwaits : steps.mapM (ToolProgramPlan.edgesOf interp (steps.map (·.id))) with
    | ok waits =>
        exact ⟨waits, rfl, untyped_bind_iff.mpr (.inl (untyped_targets_iff.mpr hprojection))⟩
    | error raised =>
        obtain ⟨before, step, after, hsplit, -, hstep⟩ := mapM_eq_error_iff.mp hwaits
        obtain ⟨wait, hwait⟩ := (hknown step).mpr (hsteps step (by simp [hsplit]))
        exact absurd (hwait.symm.trans hstep) ok_ne_error

/-- Compiling raises an untyped exception exactly where it reads an overlong marker. -/
theorem untyped_compile_iff :
    RaisesUntyped (ToolProgramPlan.compile interp authorizedToolNames limits program) ↔
      ReadsOverlong interp authorizedToolNames limits program := by
  constructor
  · intro h
    unfold ToolProgramPlan.compile at h
    rcases untyped_bind_iff.mp h with hindexed | ⟨steps, hindexed, h⟩
    · refine absurd hindexed (RaisesTyped.not_untyped ?_)
      intro raised hraised
      unfold ToolProgramPlan.indexed at hraised
      split at hraised
      · cases hraised
        rfl
      · split at hraised
        · cases hraised
          rfl
        · split at hraised <;> cases hraised
          rfl
    rcases untyped_bind_iff.mp h with hauthorize | ⟨_, hauthorize, h⟩
    · refine absurd hauthorize (RaisesTyped.not_untyped ?_)
      intro raised hraised
      unfold ToolProgramPlan.authorize at hraised
      split at hraised <;> cases hraised
      rfl
    obtain ⟨rfl, hadmitted⟩ := admitted_of_ok hindexed hauthorize
    rcases untyped_bind_iff.mp h with hedges | ⟨waits, -, h⟩
    · exact ⟨hadmitted, untyped_edges_iff.mp hedges⟩
    rcases untyped_bind_iff.mp h with hlayered | ⟨layers, -, h⟩
    · refine absurd hlayered (RaisesTyped.not_untyped ?_)
      intro raised hraised
      unfold ToolProgramPlan.layered at hraised
      split at hraised <;> cases hraised
      rfl
    · exact absurd h (not_untyped_ok _)
  · rintro ⟨hadmitted, hoverlong⟩
    unfold ToolProgramPlan.compile
    rw [hadmitted.indexed]
    refine untyped_bind_iff.mpr (.inr ⟨_, rfl, ?_⟩)
    rw [hadmitted.authorize]
    refine untyped_bind_iff.mpr (.inr ⟨_, rfl, ?_⟩)
    exact untyped_bind_iff.mpr (.inl (untyped_edges_iff.mpr hoverlong))

end CopilotRuntime.ToolProgram
