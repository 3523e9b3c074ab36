import SyndDB.Framework.Changes

namespace Changes

variable {κ ν : Type} [DecidableEq ν]

/-- The row a change wants afterwards: none, or one with these values in these columns. -/
def Change.postImage : Change κ ν → Option (Nat → Option (Option ν))
  | .insert _ new => some fun i => some new[i]?
  | .update _ old new => some fun i => if old[i]? = new[i]? then none else some new[i]?
  | .delete _ _ => none

/-- The row is as the change wants it. -/
def Change.Agrees (row : Option (List ν)) (change : Change κ ν) : Prop :=
  match change.postImage with
  | none => row = none
  | some wanted => ∃ values, row = some values ∧ ∀ i v, wanted i = some v → values[i]? = v

/-- Some row could be as both changes want it. -/
def Change.Compatible (change other : Change κ ν) : Prop :=
  match change.postImage, other.postImage with
  | none, none => True
  | some wanted, some wanted' => ∀ i v v', wanted i = some v → wanted' i = some v' → v = v'
  | _, _ => False

theorem agrees_insert (key : κ) (new : List ν) (row : Option (List ν)) :
    (Change.insert key new).Agrees row ↔ row = some new := by
  simp only [Change.Agrees, Change.postImage]
  constructor
  · intro given
    obtain ⟨values, same, columns⟩ := given
    rw [same, Option.some.injEq]
    apply List.ext_getElem?
    intro i
    exact columns i new[i]? rfl
  · intro same
    refine ⟨new, same, ?_⟩
    intro i v h
    exact Option.some.inj h

theorem agrees_update (key : κ) (old new : List ν) (row : Option (List ν)) :
    (Change.update key old new).Agrees row ↔
      ∃ values, row = some values ∧ ∀ i : Nat, old[i]? ≠ new[i]? → values[i]? = new[i]? := by
  simp only [Change.Agrees, Change.postImage]
  constructor
  · intro given
    obtain ⟨values, same, columns⟩ := given
    refine ⟨values, same, ?_⟩
    intro i changed
    exact columns i new[i]? (if_neg changed)
  · intro given
    obtain ⟨values, same, columns⟩ := given
    refine ⟨values, same, ?_⟩
    intro i v h
    by_cases kept : old[i]? = new[i]?
    · simp [kept] at h
    · rw [if_neg kept, Option.some.injEq] at h
      rw [columns i kept, h]

theorem agrees_delete (key : κ) (old : List ν) (row : Option (List ν)) :
    (Change.delete key old).Agrees row ↔ row = none := Iff.rfl

/-- Changes that agree with one row are compatible. -/
theorem compatible_of_agrees (change other : Change κ ν) (row : Option (List ν))
    (h : change.Agrees row) (h' : other.Agrees row) : change.Compatible other := by
  unfold Change.Agrees at h h'
  unfold Change.Compatible
  cases wanted : change.postImage with
  | none =>
    rw [wanted] at h
    cases wanted' : other.postImage with
    | none => trivial
    | some f =>
      rw [wanted'] at h'
      obtain ⟨values, present, -⟩ := h'
      rw [h] at present
      cases present
  | some f =>
    rw [wanted] at h
    obtain ⟨values, present, columns⟩ := h
    cases wanted' : other.postImage with
    | none =>
      rw [wanted'] at h'
      rw [h'] at present
      cases present
    | some f' =>
      rw [wanted'] at h'
      obtain ⟨values', present', columns'⟩ := h'
      rw [present', Option.some.injEq] at present
      intro i v v' hv hv'
      rw [← columns i v hv, ← columns' i v' hv', present]

theorem Change.compatible_self (change : Change κ ν) : change.Compatible change := by
  unfold Change.Compatible
  cases change.postImage with
  | none => trivial
  | some wanted =>
    intro i v v' h h'
    rw [h] at h'
    exact Option.some.inj h'

/-- A patch that went through, column by column. -/
inductive Patched : List ν → List ν → List ν → List ν → Prop
  | nil : Patched [] [] [] []
  | keep (o c : ν) {old new current result : List ν} (rest : Patched old new current result) :
      Patched (o :: old) (o :: new) (c :: current) (c :: result)
  | change (o n : ν) {old new current result : List ν} (different : o ≠ n)
      (rest : Patched old new current result) :
      Patched (o :: old) (n :: new) (o :: current) (n :: result)

theorem patched_of_patch (old new current result : List ν)
    (h : patch old new current = some result) : Patched old new current result := by
  induction old generalizing new current result with
  | nil =>
    cases new with
    | cons n new => simp [patch] at h
    | nil =>
      cases current with
      | cons c current => simp [patch] at h
      | nil =>
        cases h
        exact .nil
  | cons o old ih =>
    cases new with
    | nil => simp [patch] at h
    | cons n new =>
      cases current with
      | nil => simp [patch] at h
      | cons c current =>
        rw [patch] at h
        cases patched : patch old new current with
        | none => simp [patched] at h
        | some rest =>
          have tail := ih new current rest patched
          by_cases same : o = n
          · obtain rfl : c :: rest = result := by simpa [patched, same] using h
            rw [same]
            exact .keep n c tail
          · by_cases as_old : c = o
            · obtain rfl : n :: rest = result := by simpa [patched, same, as_old] using h
              rw [as_old]
              exact .change o n same tail
            · simp [patched, same, as_old] at h

omit [DecidableEq ν] in
theorem Patched.length {old new current result : List ν} (h : Patched old new current result) :
    result.length = current.length := by
  induction h with
  | nil => rfl
  | keep o c rest ih => simpa using ih
  | change o n different rest ih => simpa using ih

/-- A patch sets the columns that differ and keeps the others. -/
theorem Patched.columns {old new current result : List ν} (h : Patched old new current result) :
    ∀ i : Nat, result[i]? = if old[i]? = new[i]? then current[i]? else new[i]? := by
  induction h with
  | nil => simp
  | keep o c rest ih =>
    intro i
    cases i with
    | zero => simp
    | succ i => simpa using ih i
  | change o n different rest ih =>
    intro i
    cases i with
    | zero => simp [different]
    | succ i => simpa using ih i

/-- An update of the list changes this column. -/
def Sets (data : List (Change κ ν)) (i : Nat) : Prop :=
  ∃ key old new, Change.update key old new ∈ data ∧ old[i]? ≠ new[i]?

/-- Without a delete a row stays, and each of its columns is as it was or as the last
update wants it. -/
theorem applyRow_columns (row : List ν) (after : Option (List ν)) (data : List (Change κ ν))
    (kept : ∀ change ∈ data, change.postImage ≠ none)
    (h : applyRow skipInserts (some row) data = .ok after) :
    ∃ values, after = some values ∧ ∀ i : Nat, (¬ Sets data i ∧ values[i]? = row[i]?) ∨
      ∃ key old new, Change.update key old new ∈ data ∧ old[i]? ≠ new[i]? ∧
        values[i]? = new[i]? := by
  induction data generalizing row with
  | nil =>
    cases h
    exact ⟨row, rfl, fun i => .inl ⟨by simp [Sets], rfl⟩⟩
  | cons change rest ih =>
    have later : ∀ other ∈ rest, other.postImage ≠ none :=
      fun other member => kept other (List.mem_cons_of_mem _ member)
    rw [applyRow] at h
    cases change with
    | delete key old => exact absurd rfl (kept _ List.mem_cons_self)
    | insert key new =>
      obtain ⟨values, same, columns⟩ := ih row later h
      refine ⟨values, same, ?_⟩
      intro i
      rcases columns i with ⟨unset, as_row⟩ | ⟨key', old', new', member, changed, as_new⟩
      · left
        refine ⟨?_, as_row⟩
        intro set
        obtain ⟨key', old', new', member, changed⟩ := set
        rcases List.mem_cons.mp member with head | tail
        · cases head
        · exact unset ⟨key', old', new', tail, changed⟩
      · exact .inr ⟨key', old', new', List.mem_cons_of_mem _ member, changed, as_new⟩
    | update key old new =>
      cases patched : patch old new row with
      | none => simp [Change.settle, Change.onRow, patched, skipInserts] at h
      | some result =>
        simp only [Change.settle, Change.onRow, patched] at h
        have set := (patched_of_patch old new row result patched).columns
        obtain ⟨values, same, columns⟩ := ih result later h
        refine ⟨values, same, ?_⟩
        intro i
        rcases columns i with ⟨unset, as_result⟩ | ⟨key', old', new', member, changed, as_new⟩
        · by_cases equal : old[i]? = new[i]?
          · left
            rw [as_result, set i, if_pos equal]
            refine ⟨?_, rfl⟩
            intro touched
            obtain ⟨key', old', new', member, changed⟩ := touched
            rcases List.mem_cons.mp member with head | tail
            · cases head
              exact changed equal
            · exact unset ⟨key', old', new', tail, changed⟩
          · right
            rw [as_result, set i, if_neg equal]
            exact ⟨key, old, new, List.mem_cons_self, equal, rfl⟩
        · exact .inr ⟨key', old', new', List.mem_cons_of_mem _ member, changed, as_new⟩

/-- After deletes there is no row. -/
theorem applyRow_deletes (row after : Option (List ν)) (data : List (Change κ ν))
    (deletes : ∀ change ∈ data, change.postImage = none)
    (h : applyRow skipInserts row data = .ok after) : data = [] ∨ after = none := by
  induction data generalizing row with
  | nil => exact .inl rfl
  | cons change rest ih =>
    right
    cases change with
    | insert key new => simp [Change.postImage] at deletes
    | update key old new => simp [Change.postImage] at deletes
    | delete key old =>
      rw [applyRow] at h
      cases row with
      | none => simp [Change.settle, Change.onRow, skipInserts] at h
      | some current =>
        by_cases same : current = old
        · simp only [Change.settle, Change.onRow, same, if_true] at h
          rcases ih none (fun other member => deletes other (List.mem_cons_of_mem _ member)) h with
            rfl | gone
          · cases h
            rfl
          · exact gone
        · simp [Change.settle, Change.onRow, same, skipInserts] at h

/-- On a row that is there, changes that keep it and fit each other are all agreed with, if the
inserts find their values in the columns that no update sets. -/
theorem agrees_of_present (row : List ν) (after : Option (List ν)) (data : List (Change κ ν))
    (h : applyRow skipInserts (some row) data = .ok after)
    (kept : ∀ change ∈ data, change.postImage ≠ none)
    (compatible : ∀ change ∈ data, ∀ other ∈ data, change.Compatible other)
    (found : ∀ key new, Change.insert key new ∈ data → ∀ i : Nat, ¬ Sets data i →
      row[i]? = new[i]?) :
    ∀ change ∈ data, change.Agrees after := by
  obtain ⟨values, same, columns⟩ := applyRow_columns row after data kept h
  intro change member
  unfold Change.Agrees
  cases wants : change.postImage with
  | none => exact absurd wants (kept change member)
  | some wanted =>
    refine ⟨values, same, ?_⟩
    intro i v want
    rcases columns i with ⟨unset, as_row⟩ | ⟨key, old, new, updates, changed, as_new⟩
    · cases change with
      | delete key old => cases wants
      | insert key new =>
        cases wants
        cases want
        rw [as_row, found key new member i unset]
      | update key old new =>
        cases wants
        by_cases equal : old[i]? = new[i]?
        · simp [equal] at want
        · exact absurd ⟨key, old, new, member, equal⟩ unset
    · have fits := compatible change member _ updates
      unfold Change.Compatible at fits
      rw [wants] at fits
      rw [as_new]
      exact (fits i v new[i]? want (if_neg changed)).symm

/-- When changes to a row went through, they are all agreed with exactly if they are compatible and
the inserts that met a row found their values in the columns that no update sets. -/
theorem applyRow_agrees_iff (row after : Option (List ν)) (data : List (Change κ ν))
    (h : applyRow skipInserts row data = .ok after) :
    (∀ change ∈ data, change.Agrees after) ↔
      (∀ change ∈ data, ∀ other ∈ data, change.Compatible other) ∧
      ∀ key new, Change.insert key new ∈ data → ∀ values, row = some values → ∀ i : Nat,
        ¬ Sets data i → values[i]? = new[i]? := by
  constructor
  · intro agreed
    refine ⟨fun change member other member' =>
      compatible_of_agrees change other after (agreed change member) (agreed other member'), ?_⟩
    intro key new inserts values present i unset
    have as_new : after = some new := (agrees_insert key new after).mp (agreed _ inserts)
    have kept : ∀ change ∈ data, change.postImage ≠ none := by
      intro change member gone
      have none := agreed change member
      unfold Change.Agrees at none
      rw [gone, as_new] at none
      cases none
    rw [present] at h
    obtain ⟨result, same, columns⟩ := applyRow_columns values after data kept h
    rw [as_new, Option.some.injEq] at same
    rcases columns i with ⟨-, as_row⟩ | ⟨key', old', new', member, changed, -⟩
    · rw [← as_row, same]
    · exact absurd ⟨key', old', new', member, changed⟩ unset
  · intro given
    obtain ⟨compatible, found⟩ := given
    by_cases deleted : ∃ change ∈ data, change.postImage = none
    · obtain ⟨change, member, gone⟩ := deleted
      have deletes : ∀ other ∈ data, other.postImage = none := by
        intro other member'
        have fits := compatible change member other member'
        unfold Change.Compatible at fits
        rw [gone] at fits
        cases wants : other.postImage with
        | none => rfl
        | some wanted => simp [wants] at fits
      rcases applyRow_deletes row after data deletes h with rfl | none
      · cases member
      · intro other member'
        unfold Change.Agrees
        rw [deletes other member', none]
    · have kept : ∀ change ∈ data, change.postImage ≠ none :=
        fun change member gone => deleted ⟨change, member, gone⟩
      cases row with
      | some values =>
        exact agrees_of_present values after data h kept compatible fun key new inserts =>
          found key new inserts values rfl
      | none =>
        cases data with
        | nil => simp
        | cons first rest =>
          cases first with
          | delete key old => exact absurd rfl (kept _ List.mem_cons_self)
          | update key old new => simp [applyRow, Change.settle, Change.onRow, skipInserts] at h
          | insert key new =>
            -- Met by its own row, the first insert does nothing.
            have again : applyRow skipInserts (some new) (Change.insert key new :: rest) =
                .ok after := h
            apply agrees_of_present new after _ again kept compatible
            intro key' new' inserts i _
            exact compatible (.insert key new) List.mem_cons_self _ inserts i _ _ rfl rfl

variable [DecidableEq κ]

/-- The same for changes to many rows. -/
theorem applyAll_agrees_iff (rows result : Rows κ ν) (data : List (Change κ ν))
    (h : applyAll skipInserts rows data = .ok result) :
    (∀ change ∈ data, change.Agrees (result change.key)) ↔
      (∀ change ∈ data, ∀ other ∈ data, other.key = change.key → change.Compatible other) ∧
      ∀ key new, Change.insert key new ∈ data → ∀ values, rows key = some values → ∀ i : Nat,
        ¬ Sets (changesTo key data) i → values[i]? = new[i]? := by
  have each (key : κ) := applyRow_agrees_iff (rows key) (result key) (changesTo key data)
    ((applyAll_ok_iff skipInserts rows result data).mp h key)
  have own (change : Change κ ν) (member : change ∈ data) : change ∈ changesTo change.key data :=
    List.mem_filter.mpr ⟨member, by simp⟩
  have mem_changesTo (key : κ) (change : Change κ ν) :
      change ∈ changesTo key data ↔ change ∈ data ∧ change.key = key := by
    simp [changesTo]
  constructor
  · intro agreed
    have agreedTo (key : κ) : ∀ change ∈ changesTo key data, change.Agrees (result key) := by
      intro change hchange
      obtain ⟨member, same⟩ := (mem_changesTo key change).mp hchange
      rw [← same]
      exact agreed change member
    constructor
    · intro change member other member' same
      exact ((each change.key).mp (agreedTo _)).1 change (own change member) other
        ((mem_changesTo _ other).mpr ⟨member', same⟩)
    · intro key new inserts
      exact ((each key).mp (agreedTo _)).2 key new (own _ inserts)
  · intro given change member
    obtain ⟨compatible, found⟩ := given
    apply (each change.key).mpr _ change (own change member)
    constructor
    · intro one hone other hother
      obtain ⟨hone, keyOne⟩ := (mem_changesTo _ one).mp hone
      obtain ⟨hother, keyOther⟩ := (mem_changesTo _ other).mp hother
      exact compatible one hone other hother (keyOther.trans keyOne.symm)
    · intro key new inserts
      obtain ⟨inserts, same⟩ := (mem_changesTo _ _).mp inserts
      have hkey : key = change.key := same
      rw [← hkey]
      exact found key new inserts

end Changes
