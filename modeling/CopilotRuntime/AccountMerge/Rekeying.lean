import CopilotRuntime.AccountMerge.Saga

/-!
# Moving rows again

Whatever moves of a table were made before an interruption, moving the rest
gives the table that one uninterrupted pass gives. Rows of an owner in a table
that holds them by owner are moved unless the survivor has one of the kind.
-/

namespace CopilotRuntime.AccountMerge

open Foundation

/-! ### The rules of programs over the stores -/

section Rules
variable {ρ : Type} {around : Surroundings ρ} {α β : Type} {crash : MergeWorld ρ → Prop}
  {post : α → MergeWorld ρ → Prop} {w : MergeWorld ρ}

/-- The program keeps its crash condition at every point, also where it raises. -/
abbrev Endures (around : Surroundings ρ) (crash : MergeWorld ρ → Prop)
    (post : α → MergeWorld ρ → Prop) (p : SagaProgram α) (w : MergeWorld ρ) : Prop :=
  Program.Withstands around.effect crash (fun w' => around.fails ∧ crash w') post p w

theorem Endures.mono {crash' : MergeWorld ρ → Prop} {post' : α → MergeWorld ρ → Prop}
    {p : SagaProgram α} (h : Endures around crash post p w)
    (hcrash : ∀ w, crash w → crash' w) (hpost : ∀ a w, post a w → post' a w) :
    Endures around crash' post' p w :=
  Program.Withstands.mono h hcrash (fun _ h => ⟨h.1, hcrash _ h.2⟩) hpost

theorem endures_pure {a : α} (hkept : crash w) (hpost : post a w) :
    Endures around crash post (pure a) w := .done hkept hpost

/-- A last operation leaves what it does. -/
theorem endures_perform_last {op : MergeOp} {post : op.Value → MergeWorld ρ → Prop}
    (hkept : crash w)
    (hlast : ∀ now, around.clock now → crash (MergeWorld.answer around.runtime now op w).2 ∧
      post (MergeWorld.answer around.runtime now op w).1
        (MergeWorld.answer around.runtime now op w).2) :
    Endures around crash post (perform op) w := by
  refine .await hkept fun reply w' heffect => ?_
  obtain ⟨now, hnow, ⟨rfl, rfl⟩ | ⟨hfails, ⟨e, rfl⟩, hworld⟩⟩ := heffect
  · exact .done (hlast now hnow).1 (hlast now hnow).2
  · have hcrash : crash w' := by
      obtain rfl | ⟨-, rfl⟩ := hworld
      · exact hkept
      · exact (hlast now hnow).1
    exact .raised hcrash ⟨hfails, hcrash⟩

/-- An operation is followed by what comes after it, or raises where it stands. -/
theorem endures_perform {op : MergeOp} {f : op.Value → SagaProgram α} (hkept : crash w)
    (hnext : ∀ now, around.clock now →
      Endures around crash post (f (MergeWorld.answer around.runtime now op w).1)
        (MergeWorld.answer around.runtime now op w).2) :
    Endures around crash post (perform op >>= f) w := by
  have hfirst : Endures around crash (fun value w' => Endures around crash post (f value) w')
      (perform op) w :=
    endures_perform_last hkept fun now hnow => ⟨(hnext now hnow).kept, hnext now hnow⟩
  exact hfirst.bind fun _ _ h => h

/-- An operation that only reads is followed by what comes after the value it reads. -/
theorem endures_read {op : MergeOp} {f : op.Value → SagaProgram α} (value : op.Value)
    (hreads : ∀ now, around.clock now → MergeWorld.answer around.runtime now op w = (value, w))
    (hnext : Endures around crash post (f value) w) :
    Endures around crash post (perform op >>= f) w := by
  refine endures_perform hnext.kept fun now hnow => ?_
  rw [hreads now hnow]
  exact hnext

end Rules

/-! ### Where rows belong -/

/-- The owner a key names, in a table that keeps its rows by owner. -/
def RowKey.owner? : MergeTable → RowKey → Option Account
  | .providerApiKeys, .provider owner _ => some owner
  | .userProfiles, .account owner => some owner
  | .userPreferences, .account owner => some owner
  | _, _ => none

/-- The key of the same kind of row of another owner. -/
def RowKey.ofOwner : RowKey → Account → RowKey
  | .id rowId, _ => .id rowId
  | .account _, owner => .account owner
  | .provider _ name, owner => .provider owner name

section Keys
variable {table : MergeTable} {key : RowKey} {owner : Account}

theorem RowKey.owner?_ofOwner (h : key.owner? table = some owner) (other : Account) :
    (key.ofOwner other).owner? table = some other := by
  unfold RowKey.owner? at h
  split at h
  · rfl
  · rfl
  · rfl
  · cases h

theorem RowKey.ofOwner_self (h : key.owner? table = some owner) : key.ofOwner owner = key := by
  unfold RowKey.owner? at h
  split at h
  · exact congrArg (RowKey.provider · _) (Option.some.inj h).symm
  · exact congrArg RowKey.account (Option.some.inj h).symm
  · exact congrArg RowKey.account (Option.some.inj h).symm
  · cases h

@[simp] theorem RowKey.ofOwner_ofOwner (key : RowKey) (a b : Account) :
    (key.ofOwner a).ofOwner b = key.ofOwner b := by
  cases key with
  | id rowId => rfl
  | account owner => rfl
  | provider owner name => rfl

end Keys

section Tables
variable (accounts : AccountPair)

/-- Whether a row of a table of identities is moved. -/
def isMoved : MergeTable → OwnedRow → Bool
  | .oidcIdentities, row => row.owner = accounts.absorbed && row.unlinkedAt.isNone
  | _, row => row.owner = accounts.absorbed

/-- Whether the row under a key is moved to the survivor's key. -/
def isHanded (table : MergeTable) (rows : Dict RowKey OwnedRow) (key : RowKey) : Bool :=
  key.owner? table = some accounts.absorbed &&
    (rows.get? (key.ofOwner accounts.survivor)).isNone

/-- What a table keeps under a key when all rows have been moved. -/
def rekeyedRow (table : MergeTable) (rows : Dict RowKey OwnedRow) (key : RowKey) :
    Option OwnedRow :=
  match table with
  | .walletIdentities | .oidcIdentities =>
      (rows.get? key).map fun row =>
        if isMoved accounts table row then row.movedTo accounts.survivor else row
  | .providerApiKeys | .userProfiles | .userPreferences =>
      match key.owner? table with
      | none => rows.get? key
      | some owner =>
          if owner = accounts.absorbed then none
          else if owner = accounts.survivor then
            (rows.get? key).or
              ((rows.get? (key.ofOwner accounts.absorbed)).map (·.movedTo accounts.survivor))
          else rows.get? key

/-- The number of rows of a table that are still to be moved. -/
def movedCount (table : MergeTable) (rows : Dict RowKey OwnedRow) : Nat :=
  match table with
  | .walletIdentities | .oidcIdentities =>
      rows.entries.countP fun entry => isMoved accounts table entry.2
  | .providerApiKeys => rows.entries.countP fun entry => isHanded accounts table rows entry.1
  | .userProfiles | .userPreferences =>
      if (rows.get? (.account accounts.absorbed)).isSome &&
        (rows.get? (.account accounts.survivor)).isNone then 1 else 0

end Tables

/-! ### Rows that are kept by owner -/

section Handing
variable {accounts : AccountPair} {table : MergeTable} {rows : Dict RowKey OwnedRow}
  {key source : RowKey}

theorem rekeyedRow_of_owner {owner : Account} (h : key.owner? table = some owner) :
    rekeyedRow accounts table rows key =
      if owner = accounts.absorbed then none
      else if owner = accounts.survivor then
        (rows.get? key).or
          ((rows.get? (key.ofOwner accounts.absorbed)).map (·.movedTo accounts.survivor))
      else rows.get? key := by
  cases table with
  | walletIdentities => cases h
  | oidcIdentities => cases h
  | providerApiKeys => simp only [rekeyedRow, h]
  | userProfiles => simp only [rekeyedRow, h]
  | userPreferences => simp only [rekeyedRow, h]

/-- Keys that name no owner keep what they have, in a table that holds its rows by owner. -/
theorem rekeyedRow_of_unowned (htable : source.owner? table = some accounts.absorbed)
    (h : key.owner? table = none) : rekeyedRow accounts table rows key = rows.get? key := by
  cases table with
  | walletIdentities => cases htable
  | oidcIdentities => cases htable
  | providerApiKeys => simp only [rekeyedRow, h]
  | userProfiles => simp only [rekeyedRow, h]
  | userPreferences => simp only [rekeyedRow, h]

/-- Two changes of a table agree on what is moved if they agree on each owner's rows. -/
theorem rekeyedRow_congr {rows' : Dict RowKey OwnedRow}
    (htable : source.owner? table = some accounts.absorbed)
    (hsurvivor : ∀ key : RowKey, key.owner? table = some accounts.survivor →
      (rows'.get? key).or
          ((rows'.get? (key.ofOwner accounts.absorbed)).map (·.movedTo accounts.survivor)) =
        (rows.get? key).or
          ((rows.get? (key.ofOwner accounts.absorbed)).map (·.movedTo accounts.survivor)))
    (hother : ∀ key : RowKey, key.owner? table ≠ some accounts.absorbed →
      key.owner? table ≠ some accounts.survivor → rows'.get? key = rows.get? key)
    (key : RowKey) : rekeyedRow accounts table rows' key = rekeyedRow accounts table rows key := by
  cases howner : key.owner? table with
  | none =>
      rw [rekeyedRow_of_unowned htable howner, rekeyedRow_of_unowned htable howner]
      exact hother key (by simp [howner]) (by simp [howner])
  | some owner =>
      rw [rekeyedRow_of_owner howner, rekeyedRow_of_owner howner]
      by_cases habsorbed : owner = accounts.absorbed
      · rw [if_pos habsorbed, if_pos habsorbed]
      · rw [if_neg habsorbed, if_neg habsorbed]
        by_cases hkept : owner = accounts.survivor
        · rw [if_pos hkept, if_pos hkept]
          exact hsurvivor key (by rw [howner, hkept])
        · rw [if_neg hkept, if_neg hkept]
          exact hother key (by simp [howner, habsorbed]) (by simp [howner, hkept])

theorem eq_target_of_ofOwner (hkey : key.owner? table = some accounts.survivor)
    (h : key.ofOwner accounts.absorbed = source) : key = source.ofOwner accounts.survivor := by
  rw [← h, RowKey.ofOwner_ofOwner, RowKey.ofOwner_self hkey]

theorem ofOwner_target (hsource : source.owner? table = some accounts.absorbed) :
    (source.ofOwner accounts.survivor).ofOwner accounts.absorbed = source := by
  rw [RowKey.ofOwner_ofOwner, RowKey.ofOwner_self hsource]

/-- A table with no rows of the absorbed account keeps what it has. -/
theorem rekeyedRow_of_clear
    (hclear : ∀ key : RowKey, key.owner? table = some accounts.absorbed → rows.get? key = none)
    (hkeyed : source.owner? table = some accounts.absorbed) (key : RowKey) :
    rekeyedRow accounts table rows key = rows.get? key := by
  cases howner : key.owner? table with
  | none => exact rekeyedRow_of_unowned hkeyed howner
  | some owner =>
      rw [rekeyedRow_of_owner howner]
      by_cases habsorbed : owner = accounts.absorbed
      · rw [if_pos habsorbed, hclear key (habsorbed ▸ howner)]
      · rw [if_neg habsorbed]
        by_cases hkept : owner = accounts.survivor
        · rw [if_pos hkept, hclear _ (RowKey.owner?_ofOwner howner accounts.absorbed),
            Option.map_none, Option.or_none]
        · rw [if_neg hkept]

variable (hne : accounts.absorbed ≠ accounts.survivor)
  (hsource : source.owner? table = some accounts.absorbed)
include hne hsource

/-- A row under the survivor's key is what would have been moved there. -/
theorem rekeyedRow_set {row : OwnedRow} (hrow : rows.get? source = some row)
    (hfree : rows.get? (source.ofOwner accounts.survivor) = none) (key : RowKey) :
    rekeyedRow accounts table
        (rows.set (source.ofOwner accounts.survivor) (row.movedTo accounts.survivor)) key =
      rekeyedRow accounts table rows key := by
  have htarget := RowKey.owner?_ofOwner hsource accounts.survivor
  refine rekeyedRow_congr hsource (fun key hkey => ?_) (fun key _ hkey => ?_) key
  · by_cases heq : key = source.ofOwner accounts.survivor
    · subst heq
      rw [ofOwner_target hsource, Dict.get?_set_self, hfree, hrow]
      rfl
    · have hback : source.ofOwner accounts.survivor ≠ key.ofOwner accounts.absorbed := by
        intro hback
        have howner := RowKey.owner?_ofOwner hkey accounts.absorbed
        rw [← hback, htarget] at howner
        exact hne (Option.some.inj howner).symm
      rw [Dict.get?_set_of_ne _ _ (Ne.symm heq), Dict.get?_set_of_ne _ _ hback]
  · rw [Dict.get?_set_of_ne]
    rintro rfl
    exact hkey htarget

/-- A row that the survivor has one of need not be there to be dropped. -/
theorem rekeyedRow_erase (hheld : (rows.get? (source.ofOwner accounts.survivor)).isSome = true)
    (key : RowKey) :
    rekeyedRow accounts table (rows.erase source) key = rekeyedRow accounts table rows key := by
  refine rekeyedRow_congr hsource (fun key hkey => ?_) (fun key hkey _ => ?_) key
  · have hkeep : source ≠ key := by
      rintro rfl
      rw [hsource] at hkey
      exact hne (Option.some.inj hkey)
    rw [Dict.get?_erase_of_ne _ hkeep]
    by_cases hback : key.ofOwner accounts.absorbed = source
    · obtain rfl := eq_target_of_ofOwner hkey hback
      obtain ⟨held, hheld⟩ := Option.isSome_iff_exists.mp hheld
      rw [hheld, Option.some_or, Option.some_or]
    · rw [Dict.get?_erase_of_ne _ (Ne.symm hback)]
  · rw [Dict.get?_erase_of_ne]
    rintro rfl
    exact hkey hsource

end Handing

/-! ### One pass over a table -/

section Passes
variable {ρ : Type} {around : Surroundings ρ} {accounts : AccountPair}
  {table : MergeTable} {w w' w'' : MergeWorld ρ}

/-- Only one table has changed, and the rows that are to be moved still come to the same. -/
def Moving (accounts : AccountPair) (table : MergeTable) (w w' : MergeWorld ρ) : Prop :=
  w' = w.setTable table (w'.tables table) ∧
    ∀ key, rekeyedRow accounts table (w'.tables table) key =
      rekeyedRow accounts table (w.tables table) key

/-- All the rows of the table have been moved. -/
def Moved (accounts : AccountPair) (table : MergeTable) (w w' : MergeWorld ρ) : Prop :=
  Moving accounts table w w' ∧
    ∀ key, (w'.tables table).get? key = rekeyedRow accounts table (w.tables table) key

@[simp] theorem tables_setTable_self (w : MergeWorld ρ) (rows : Dict RowKey OwnedRow) :
    (w.setTable table rows).tables table = rows := Function.update_self _ _ _

@[simp] theorem setTable_self (w : MergeWorld ρ) : w.setTable table (w.tables table) = w := by
  unfold MergeWorld.setTable
  rw [Function.update_eq_self]

@[simp] theorem setTable_setTable (w : MergeWorld ρ) (rows rows' : Dict RowKey OwnedRow) :
    (w.setTable table rows).setTable table rows' = w.setTable table rows' := by
  unfold MergeWorld.setTable
  rw [Function.update_idem]

theorem Moving.refl (w : MergeWorld ρ) : Moving accounts table w w :=
  ⟨(setTable_self w).symm, fun _ => rfl⟩

theorem Moving.trans (h : Moving accounts table w w') (h' : Moving accounts table w' w'') :
    Moving accounts table w w'' := by
  refine ⟨?_, fun key => (h'.2 key).trans (h.2 key)⟩
  have hlast := h'.1
  rw [h.1, setTable_setTable] at hlast
  exact hlast

theorem Moving.moved (h : Moving accounts table w w') (h' : Moved accounts table w' w'') :
    Moved accounts table w w'' :=
  ⟨h.trans h'.1, fun key => (h'.2 key).trans (h.2 key)⟩

theorem moving_set {rows : Dict RowKey OwnedRow}
    (h : ∀ key, rekeyedRow accounts table rows key =
      rekeyedRow accounts table (w.tables table) key) :
    Moving accounts table w (w.setTable table rows) :=
  ⟨by rw [tables_setTable_self], fun key => by rw [tables_setTable_self, h]⟩

/-- What a pass keeps and leaves from a state in which moving has begun. -/
theorem Moving.continue {p : SagaProgram Nat} {n : Nat} (h : Moving accounts table w w')
    (hp : Endures around (Moving accounts table w')
      (fun moved w'' => moved = n ∧ Moved accounts table w' w'') p w') :
    Endures around (Moving accounts table w)
      (fun moved w'' => moved = n ∧ Moved accounts table w w'') p w' :=
  Endures.mono hp (fun _ hmoving => h.trans hmoving) fun _ _ hpost => ⟨hpost.1, h.moved hpost.2⟩

variable (hne : accounts.absorbed ≠ accounts.survivor)
include hne

/-- A row that was moved is not moved again. -/
theorem isMoved_movedTo (table : MergeTable) (row : OwnedRow) :
    isMoved accounts table (row.movedTo accounts.survivor) = false := by
  have hother : decide (accounts.survivor = accounts.absorbed) = false := decide_eq_false hne.symm
  cases table with
  | oidcIdentities => exact Bool.and_eq_false_iff.mpr (.inl hother)
  | walletIdentities => exact hother
  | providerApiKeys => exact hother
  | userProfiles => exact hother
  | userPreferences => exact hother

/-- A pass over the rows of a table of identities. -/
theorem endures_retenant
    (htable : ∀ rows key, rekeyedRow accounts table rows key = (rows.get? key).map fun row =>
      if isMoved accounts table row then row.movedTo accounts.survivor else row)
    (rows : List (RowKey × OwnedRow)) (w : MergeWorld ρ)
    (hrows : ∀ entry ∈ rows, (w.tables table).get? entry.1 = some entry.2)
    (hnodup : (rows.map Prod.fst).Nodup)
    (hrest : ∀ key row, (w.tables table).get? key = some row → isMoved accounts table row = true →
      (key, row) ∈ rows) :
    Endures around (Moving accounts table w)
      (fun moved w' => moved = rows.countP (fun entry => isMoved accounts table entry.2) ∧
        Moved accounts table w w')
      (retenant accounts table (isMoved accounts table) rows) w := by
  induction rows generalizing w with
  | nil =>
      refine endures_pure (Moving.refl w) ⟨rfl, Moving.refl w, fun key => ?_⟩
      rw [htable]
      cases hrow : (w.tables table).get? key with
      | none => rfl
      | some row =>
          have hkept : isMoved accounts table row = false :=
            Bool.eq_false_iff.mpr fun hmoved => List.not_mem_nil (hrest key row hrow hmoved)
          rw [Option.map_some, hkept]
          rfl
  | cons entry rest ih =>
      obtain ⟨key, row⟩ := entry
      obtain ⟨hfresh, hnodup⟩ := List.nodup_cons.mp hnodup
      have hrow : (w.tables table).get? key = some row := hrows _ List.mem_cons_self
      have hmore := fun entry (hmem : entry ∈ rest) => hrows entry (List.mem_cons_of_mem _ hmem)
      rw [retenant, List.countP_cons]
      by_cases hmoved : isMoved accounts table row = true
      · rw [if_pos hmoved, if_pos hmoved]
        have hstay := isMoved_movedTo hne table row
        have hmoving : Moving accounts table w (w.setTable table
            ((w.tables table).set key (row.movedTo accounts.survivor))) := by
          refine moving_set fun other => ?_
          rw [htable, htable, Dict.get?_set]
          by_cases heq : key = other
          · subst heq
            rw [if_pos rfl, hrow, Option.map_some, Option.map_some, hstay, hmoved]
            rfl
          · rw [if_neg heq]
        refine endures_perform (Moving.refl w) fun now _ => ?_
        refine Program.Withstands.bind (hmoving.continue (ih _ ?_ hnodup ?_)) ?_
        · intro entry hmem
          have hkey : entry.1 ∈ rest.map Prod.fst := List.mem_map_of_mem hmem
          have hother : key ≠ entry.1 := by
            rintro rfl
            exact hfresh hkey
          rw [tables_setTable_self, Dict.get?_set_of_ne _ _ hother]
          exact hmore entry hmem
        · intro other row' hrow' hmoved'
          rw [tables_setTable_self, Dict.get?_set] at hrow'
          split at hrow'
          · obtain rfl := Option.some.inj hrow'
            rw [hstay] at hmoved'
            cases hmoved'
          · next hother =>
              obtain heq | hmem := List.mem_cons.mp (hrest other row' hrow' hmoved')
              · exact absurd (congrArg Prod.fst heq).symm hother
              · exact hmem
        · rintro moved w' ⟨rfl, hdone⟩
          exact endures_pure hdone.1 ⟨rfl, hdone⟩
      · rw [if_neg hmoved, if_neg hmoved]
        refine ih w hmore hnodup fun other row' hrow' hmoved' => ?_
        obtain heq | hmem := List.mem_cons.mp (hrest other row' hrow' hmoved')
        · obtain ⟨-, rfl⟩ := Prod.mk.inj heq
          exact absurd hmoved' hmoved
        · exact hmem

/-- A table after a row has been given to the survivor, or dropped. -/
def handedOver (accounts : AccountPair) (rows : Dict RowKey OwnedRow) (source : RowKey)
    (row : OwnedRow) : Dict RowKey OwnedRow :=
  (if (rows.get? (source.ofOwner accounts.survivor)).isNone then
    rows.set (source.ofOwner accounts.survivor) (row.movedTo accounts.survivor)
  else rows).erase source

omit hne in
/-- Other keys than the two of a row keep what they have. -/
theorem get?_handedOver {rows : Dict RowKey OwnedRow} {source key : RowKey} (row : OwnedRow)
    (hsource : key ≠ source)
    (htarget : key ≠ source.ofOwner accounts.survivor ∨ (rows.get? key).isSome = true) :
    (handedOver accounts rows source row).get? key = rows.get? key := by
  rw [handedOver, Dict.get?_erase_of_ne _ (Ne.symm hsource)]
  split
  · next hfree =>
      refine Dict.get?_set_of_ne _ _ fun heq => ?_
      obtain hne | hsome := htarget
      · exact hne heq.symm
      · rw [← heq, Option.isSome_iff_ne_none] at hsome
        exact hsome (Option.isNone_iff_eq_none.mp hfree)
  · rfl

theorem endures_moveRow {source : RowKey} (hsource : source.owner? table = some accounts.absorbed)
    {row : OwnedRow} (hrow : (w.tables table).get? source = some row) :
    Endures around (Moving accounts table w)
      (fun moved w' =>
        moved = (if ((w.tables table).get? (source.ofOwner accounts.survivor)).isNone then 1
          else 0) ∧
        w' = w.setTable table (handedOver accounts (w.tables table) source row) ∧
        Moving accounts table w w')
      (moveRow accounts table source (source.ofOwner accounts.survivor) row) w := by
  refine endures_perform (Moving.refl w) fun now _ => ?_
  change Endures _ _ _ (if ((w.tables table).get? _).isNone then _ else _) w
  by_cases hfree : ((w.tables table).get? (source.ofOwner accounts.survivor)).isNone = true
  · have hset := moving_set (w := w) fun key => rekeyedRow_set hne hsource hrow
      (Option.isNone_iff_eq_none.mp hfree) key
    rw [if_pos hfree, if_pos hfree]
    refine endures_perform (Moving.refl w) fun now _ => ?_
    have hdrop : Moving accounts table w (w.setTable table
        (handedOver accounts (w.tables table) source row)) := by
      refine moving_set fun key => ?_
      rw [handedOver, if_pos hfree, rekeyedRow_erase hne hsource (by rw [Dict.get?_set_self]; rfl)]
      exact rekeyedRow_set hne hsource hrow (Option.isNone_iff_eq_none.mp hfree) key
    refine endures_perform hset fun now _ => ?_
    have hworld : (MergeWorld.answer around.runtime now (.deleteTableRow table source)
        (w.setTable table ((w.tables table).set (source.ofOwner accounts.survivor)
          (row.movedTo accounts.survivor)))).2 =
        w.setTable table (handedOver accounts (w.tables table) source row) := by
      rw [handedOver, if_pos hfree]
      exact (setTable_setTable _ _ _).trans (by rw [tables_setTable_self])
    exact endures_pure (hworld ▸ hdrop) ⟨rfl, hworld, hworld ▸ hdrop⟩
  · have hheld : ((w.tables table).get? (source.ofOwner accounts.survivor)).isSome = true := by
      rwa [Bool.not_eq_true, Option.isNone_eq_false_iff] at hfree
    have hworld : w.setTable table ((w.tables table).erase source) =
        w.setTable table (handedOver accounts (w.tables table) source row) := by
      rw [handedOver, if_neg hfree]
    have hdrop : Moving accounts table w (w.setTable table ((w.tables table).erase source)) :=
      moving_set fun key => rekeyedRow_erase hne hsource hheld key
    rw [if_neg hfree, if_neg hfree]
    refine endures_perform (Moving.refl w) fun now _ => ?_
    exact endures_pure hdrop ⟨rfl, hworld, hdrop⟩

/-- Handing over one row leaves to the others whether they are moved. -/
theorem isHanded_handedOver {rows : Dict RowKey OwnedRow} {source key : RowKey} (row : OwnedRow)
    (hsource : source.owner? table = some accounts.absorbed) (hother : key ≠ source) :
    isHanded accounts table (handedOver accounts rows source row) key =
      isHanded accounts table rows key := by
  unfold isHanded
  by_cases hkey : key.owner? table = some accounts.absorbed
  · have htarget : key.ofOwner accounts.survivor ≠ source := by
      intro heq
      have howner := RowKey.owner?_ofOwner hkey accounts.survivor
      rw [heq, hsource] at howner
      exact hne (Option.some.inj howner)
    have hapart : key.ofOwner accounts.survivor ≠ source.ofOwner accounts.survivor := by
      intro heq
      have hback := congrArg (RowKey.ofOwner · accounts.absorbed) heq
      simp only [RowKey.ofOwner_ofOwner] at hback
      rw [RowKey.ofOwner_self hkey, RowKey.ofOwner_self hsource] at hback
      exact hother hback
    rw [get?_handedOver row htarget (.inl hapart)]
  · rw [decide_eq_false hkey, Bool.false_and, Bool.false_and]

/-- A pass over rows that are kept by owner and provider. -/
theorem endures_moveProviderRows (rows : List (RowKey × OwnedRow)) (w : MergeWorld ρ)
    (hrows : ∀ entry ∈ rows, (w.tables .providerApiKeys).get? entry.1 = some entry.2)
    (hnodup : (rows.map Prod.fst).Nodup)
    (hrest : ∀ key : RowKey, key.owner? .providerApiKeys = some accounts.absorbed →
      ((w.tables .providerApiKeys).get? key).isSome = true → key ∈ rows.map Prod.fst) :
    Endures around (Moving accounts .providerApiKeys w)
      (fun moved w' =>
        moved = rows.countP (fun entry =>
          isHanded accounts .providerApiKeys (w.tables .providerApiKeys) entry.1) ∧
        Moved accounts .providerApiKeys w w')
      (moveProviderRows accounts .providerApiKeys rows) w := by
  induction rows generalizing w with
  | nil =>
      refine endures_pure (Moving.refl w) ⟨rfl, Moving.refl w, fun key => ?_⟩
      have hkeyed : (RowKey.provider accounts.absorbed "").owner? .providerApiKeys =
        some accounts.absorbed := rfl
      refine (rekeyedRow_of_clear (fun other howner => ?_) hkeyed key).symm
      rw [← Option.not_isSome_iff_eq_none]
      exact fun hsome => List.not_mem_nil (hrest other howner hsome)
  | cons entry rest ih =>
      obtain ⟨key, row⟩ := entry
      obtain ⟨hfresh, hnodup'⟩ := List.nodup_cons.mp hnodup
      have hrow : (w.tables .providerApiKeys).get? key = some row := hrows _ List.mem_cons_self
      have hmore := fun entry (hmem : entry ∈ rest) => hrows entry (List.mem_cons_of_mem _ hmem)
      by_cases hsource : key.owner? .providerApiKeys = some accounts.absorbed
      · obtain ⟨name, rfl⟩ : ∃ name, key = .provider accounts.absorbed name := by
          cases key with
          | provider owner name => exact ⟨name, congrArg (RowKey.provider · name)
              (Option.some.inj hsource)⟩
          | id rowId => cases hsource
          | account owner => cases hsource
        rw [moveProviderRows, if_pos rfl, List.countP_cons]
        refine Program.Withstands.bind (endures_moveRow hne hsource hrow) ?_
        rintro first w' ⟨rfl, hworld, hmoving⟩
        have htables : w'.tables .providerApiKeys = handedOver accounts
            (w.tables .providerApiKeys) (.provider accounts.absorbed name) row := by
          rw [hworld, tables_setTable_self]
        have hapart : ∀ entry ∈ rest, entry.1 ≠ .provider accounts.absorbed name :=
          fun entry hmem heq => hfresh (heq ▸ List.mem_map.mpr ⟨entry, hmem, rfl⟩)
        refine Program.Withstands.bind (hmoving.continue (ih w' ?_ hnodup' ?_)) ?_
        · intro entry hmem
          rw [htables, get?_handedOver row (hapart entry hmem) (.inr ?_)]
          · exact hmore entry hmem
          · rw [hmore entry hmem]
            rfl
        · intro other howner hsome
          have hother : other ≠ .provider accounts.absorbed name := by
            rintro rfl
            rw [htables, handedOver, Dict.get?_erase_self] at hsome
            cases hsome
          have htarget : other ≠ (RowKey.provider accounts.absorbed name).ofOwner
              accounts.survivor := by
            rintro rfl
            exact hne (Option.some.inj howner).symm
          rw [htables, get?_handedOver row hother (.inl htarget)] at hsome
          obtain heq | hmem := List.mem_cons.mp (hrest other howner hsome)
          · exact absurd heq hother
          · exact hmem
        · rintro more w'' ⟨rfl, hdone⟩
          refine endures_pure hdone.1 ⟨?_, hdone⟩
          have hcount : rest.countP (fun entry =>
              isHanded accounts .providerApiKeys (w'.tables .providerApiKeys) entry.1) =
              rest.countP fun entry =>
                isHanded accounts .providerApiKeys (w.tables .providerApiKeys) entry.1 := by
            refine List.countP_congr fun entry hmem => ?_
            rw [htables, isHanded_handedOver hne row hsource (hapart entry hmem)]
          have hthis : isHanded accounts .providerApiKeys (w.tables .providerApiKeys)
              (.provider accounts.absorbed name) =
              ((w.tables .providerApiKeys).get? ((RowKey.provider accounts.absorbed name).ofOwner
                accounts.survivor)).isNone := by
            rw [isHanded, decide_eq_true hsource, Bool.true_and]
          rw [hcount, hthis, Nat.add_comm]
      · have hskip : moveProviderRows accounts .providerApiKeys ((key, row) :: rest) =
            moveProviderRows accounts .providerApiKeys rest := by
          cases key with
          | provider owner name =>
              have howner : owner ≠ accounts.absorbed := fun h => hsource (congrArg some h)
              rw [moveProviderRows, if_neg howner]
          | id rowId => rfl
          | account owner => rfl
        have hnot : isHanded accounts .providerApiKeys (w.tables .providerApiKeys) key = false := by
          rw [isHanded, decide_eq_false hsource, Bool.false_and]
        rw [hskip, List.countP_cons, hnot]
        refine ih w hmore hnodup' fun other howner hsome => ?_
        obtain heq | hmem := List.mem_cons.mp (hrest other howner hsome)
        · obtain rfl : other = key := heq
          exact absurd howner hsource
        · exact hmem

/-- The pass over a table that holds one row of each account. -/
theorem endures_moveAccountRow
    (htable : ∀ key : RowKey, key.owner? table = some accounts.absorbed ↔
      key = .account accounts.absorbed) (w : MergeWorld ρ) :
    Endures around (Moving accounts table w)
      (fun moved w' =>
        moved = (if ((w.tables table).get? (.account accounts.absorbed)).isSome &&
          ((w.tables table).get? (.account accounts.survivor)).isNone then 1 else 0) ∧
        Moved accounts table w w')
      (moveAccountRow accounts table) w := by
  have hsource := (htable (.account accounts.absorbed)).mpr rfl
  cases hrow : (w.tables table).get? (.account accounts.absorbed) with
  | none =>
      refine endures_read none (fun _ _ => Prod.ext hrow rfl) ?_
      refine endures_pure (Moving.refl w) ⟨rfl, Moving.refl w, fun key => ?_⟩
      refine (rekeyedRow_of_clear (fun other howner => ?_) hsource key).symm
      rw [(htable other).mp howner, hrow]
  | some row =>
      refine endures_read (some row) (fun _ _ => Prod.ext hrow rfl) ?_
      refine Endures.mono (endures_moveRow hne hsource hrow) (fun _ h => h) ?_
      rintro moved w' ⟨rfl, hworld, hmoving⟩
      refine ⟨?_, hmoving, fun key => ?_⟩
      · rw [Option.isSome_some, Bool.true_and]
        rfl
      · rw [← hmoving.2 key]
        refine (rekeyedRow_of_clear (fun other howner => ?_) hsource key).symm
        rw [hworld, tables_setTable_self, (htable other).mp howner, handedOver,
          Dict.get?_erase_self]

omit hne in
theorem nodup_keys (rows : Dict RowKey OwnedRow) : (rows.entries.map Prod.fst).Nodup :=
  rows.keys_nodup

theorem endures_rekeyTable (table : MergeTable) (w : MergeWorld ρ) :
    Endures around (Moving accounts table w)
      (fun moved w' => moved = movedCount accounts table (w.tables table) ∧
        Moved accounts table w w')
      (rekeyTable accounts table) w := by
  cases table with
  | walletIdentities =>
      refine endures_perform (Moving.refl w) fun now _ => ?_
      exact endures_retenant hne (fun _ _ => rfl) _ w (fun _ h => Dict.mem_entries_iff.mp h)
        (nodup_keys _) fun _ _ hrow _ => Dict.mem_entries_iff.mpr hrow
  | oidcIdentities =>
      refine endures_perform (Moving.refl w) fun now _ => ?_
      exact endures_retenant hne (fun _ _ => rfl) _ w (fun _ h => Dict.mem_entries_iff.mp h)
        (nodup_keys _) fun _ _ hrow _ => Dict.mem_entries_iff.mpr hrow
  | providerApiKeys =>
      refine endures_perform (Moving.refl w) fun now _ => ?_
      refine endures_moveProviderRows hne _ w (fun _ h => Dict.mem_entries_iff.mp h)
        (nodup_keys _) fun key _ hsome => ?_
      obtain ⟨row, hrow⟩ := Option.isSome_iff_exists.mp hsome
      exact List.mem_map.mpr ⟨(key, row), Dict.mem_entries_iff.mpr hrow, rfl⟩
  | userProfiles =>
      refine endures_moveAccountRow hne (fun key => ?_) w
      cases key with
      | id rowId => simp [RowKey.owner?]
      | account owner => simp [RowKey.owner?]
      | provider owner name => simp [RowKey.owner?]
  | userPreferences =>
      refine endures_moveAccountRow hne (fun key => ?_) w
      cases key with
      | id rowId => simp [RowKey.owner?]
      | account owner => simp [RowKey.owner?]
      | provider owner name => simp [RowKey.owner?]

end Passes

/-! ### All the tables -/

section AllTables
variable {ρ : Type} (service : MergeService ρ) (accounts : AccountPair)

/-- What a table keeps under a key, if its store is there to have its rows moved. -/
def rekeyedAt (table : MergeTable) (rows : Dict RowKey OwnedRow) (key : RowKey) :
    Option OwnedRow :=
  if service.wired table then rekeyedRow accounts table rows key else rows.get? key

/-- Only tables have changed, and what is to be moved still comes to the same. -/
def MovingAll (w w' : MergeWorld ρ) : Prop :=
  w' = { w with tables := w'.tables } ∧
    ∀ table key, rekeyedAt service accounts table (w'.tables table) key =
      rekeyedAt service accounts table (w.tables table) key

/-- The numbers of rows that are to be moved in tables. -/
def countsOf (w : MergeWorld ρ) (tables : List MergeTable) : List (String × Json) :=
  (tables.filter service.wired).map fun table =>
    (table.text, .int (movedCount accounts table (w.tables table)))

variable {service accounts} {around : Surroundings ρ} {w w' w'' : MergeWorld ρ}

theorem MovingAll.refl (w : MergeWorld ρ) : MovingAll service accounts w w :=
  ⟨rfl, fun _ _ => rfl⟩

theorem MovingAll.trans (h : MovingAll service accounts w w')
    (h' : MovingAll service accounts w' w'') : MovingAll service accounts w w'' := by
  refine ⟨?_, fun table key => (h'.2 table key).trans (h.2 table key)⟩
  have hlast := h'.1
  rw [h.1] at hlast
  exact hlast

theorem Moving.tables_of_ne {table other : MergeTable} (h : Moving accounts table w w')
    (hne : other ≠ table) : w'.tables other = w.tables other := by
  rw [h.1]
  exact Function.update_of_ne hne _ _

theorem Moving.all {table : MergeTable} (hwired : service.wired table = true)
    (h : Moving accounts table w w') : MovingAll service accounts w w' := by
  refine ⟨?_, fun other key => ?_⟩
  · rw [h.1]
    rfl
  · by_cases hother : other = table
    · subst hother
      rw [rekeyedAt, rekeyedAt, if_pos hwired, if_pos hwired]
      exact h.2 key
    · rw [h.tables_of_ne hother]

/-- Moving the rows of tables moves them all and counts them. -/
theorem endures_rekeyTables (hne : accounts.absorbed ≠ accounts.survivor)
    (tables : List MergeTable) (hnodup : tables.Nodup) (w : MergeWorld ρ) :
    Endures around (MovingAll service accounts w)
      (fun counts w' => counts = countsOf service accounts w tables ∧
        MovingAll service accounts w w' ∧
        (∀ table ∉ tables, w'.tables table = w.tables table) ∧
        ∀ table ∈ tables, ∀ key,
          (w'.tables table).get? key = rekeyedAt service accounts table (w.tables table) key)
      (rekeyTables service accounts tables) w := by
  induction tables generalizing w with
  | nil =>
      refine endures_pure (MovingAll.refl w) ⟨rfl, MovingAll.refl w, fun _ _ => rfl, ?_⟩
      exact fun table hmem => absurd hmem List.not_mem_nil
  | cons table rest ih =>
      obtain ⟨hfresh, hnodup⟩ := List.nodup_cons.mp hnodup
      rw [rekeyTables]
      by_cases hwired : service.wired table = true
      · rw [if_pos hwired]
        refine Program.Withstands.bind (Endures.mono (endures_rekeyTable hne table w)
          (fun _ h => h.all hwired) fun _ _ h => h) ?_
        rintro moved w' ⟨rfl, hmoving, hmoved⟩
        refine Program.Withstands.bind (Endures.mono (ih hnodup w')
          (fun _ h => (hmoving.all hwired).trans h) fun _ _ h => h) ?_
        rintro counts w'' ⟨rfl, hall, hkept, hdone⟩
        refine endures_pure ((hmoving.all hwired).trans hall)
          ⟨?_, (hmoving.all hwired).trans hall, fun other hother => ?_, fun other hother key => ?_⟩
        · rw [countsOf, countsOf, List.filter_cons_of_pos hwired, List.map_cons]
          refine congrArg _ (List.map_congr_left fun other hother => ?_)
          have hother : other ≠ table := by
            rintro rfl
            exact hfresh (List.mem_filter.mp hother).1
          rw [hmoving.tables_of_ne hother]
        · rw [List.mem_cons, not_or] at hother
          rw [hkept other hother.2, hmoving.tables_of_ne hother.1]
        · obtain heq | hother := List.mem_cons.mp hother
          · rw [heq, hkept table hfresh, hmoved key, rekeyedAt, if_pos hwired]
          · have hapart : other ≠ table := fun heq => hfresh (heq ▸ hother)
            rw [hdone other hother key, hmoving.tables_of_ne hapart]
      · rw [if_neg hwired]
        refine Endures.mono (ih hnodup w) (fun _ h => h) ?_
        rintro counts w' ⟨rfl, hall, hkept, hdone⟩
        refine ⟨?_, hall, fun other hother => ?_, fun other hother key => ?_⟩
        · rw [countsOf, countsOf, List.filter_cons_of_neg hwired]
        · exact hkept other fun hmem => hother (List.mem_cons_of_mem _ hmem)
        · obtain heq | hother := List.mem_cons.mp hother
          · rw [heq, hkept table hfresh, rekeyedAt, if_neg hwired]
          · exact hdone other hother key

/-- The rows of all tables have been moved. -/
def Rekeyed (service : MergeService ρ) (accounts : AccountPair) (w w' : MergeWorld ρ) : Prop :=
  ∀ table key, (w'.tables table).get? key = rekeyedAt service accounts table (w.tables table) key

theorem endures_rekey (hne : accounts.absorbed ≠ accounts.survivor) (w : MergeWorld ρ) :
    Endures around (MovingAll service accounts w)
      (fun counts w' => counts = countsOf service accounts w MergeTable.all ∧
        MovingAll service accounts w w' ∧ Rekeyed service accounts w w')
      (rekey service accounts) w := by
  refine Endures.mono (endures_rekeyTables hne _ (by decide) w) (fun _ h => h) ?_
  rintro counts w' ⟨hcounts, hall, -, hdone⟩
  refine ⟨hcounts, hall, fun table => hdone table ?_⟩
  cases table with
  | walletIdentities => decide
  | oidcIdentities => decide
  | providerApiKeys => decide
  | userProfiles => decide
  | userPreferences => decide

end AllTables

end CopilotRuntime.AccountMerge
