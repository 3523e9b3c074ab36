import Mathlib.Data.List.Basic
import Mathlib.Logic.Function.Basic

namespace Changes

variable {κ ν : Type}

/-- Rows by key. -/
abbrev Rows (κ ν : Type) := κ → Option (List ν)

inductive Change (κ ν : Type) where
  | insert (key : κ) (new : List ν)
  | update (key : κ) (old new : List ν)
  | delete (key : κ) (old : List ν)
  deriving DecidableEq

def Change.key : Change κ ν → κ
  | .insert key _ | .update key _ _ | .delete key _ => key

/-- The number of columns of the changed row. -/
def Change.columns : Change κ ν → Nat
  | .insert _ new | .update _ _ new => new.length
  | .delete _ old => old.length

/-- Why a change does not fit the rows it meets. -/
inductive Conflict where
  | DATA
  | NOTFOUND
  | CONFLICT
  deriving DecidableEq

inductive Action where
  | skip
  | abort
  deriving DecidableEq

variable [DecidableEq ν]

/-- Set the columns that differ between `old` and `new`, if they are as they were. -/
def patch : List ν → List ν → List ν → Option (List ν)
  | [], [], [] => some []
  | o :: old, n :: new, c :: current =>
      match patch old new current with
      | none => none
      | some rest =>
          if o = n then some (c :: rest)
          else if c = o then some (n :: rest)
          else none
  | _, _, _ => none

/-- A patch leads to the new row exactly from the old one. -/
theorem patch_eq_new_iff (old new current : List ν) (h : current.length = new.length) :
    patch old new current = some new ↔ current = old := by
  induction old generalizing new current with
  | nil =>
    cases new with
    | nil => cases current <;> simp [patch] at h ⊢
    | cons n new => cases current <;> simp [patch] at h ⊢
  | cons o old ih =>
    cases new with
    | nil => cases current <;> simp [patch] at h ⊢
    | cons n new =>
      cases current with
      | nil => simp at h
      | cons c current =>
        have step := ih new current (by simpa using h)
        rw [patch]
        cases patched : patch old new current with
        | none =>
          have different : current ≠ old := by
            intro same
            rw [step.mpr same] at patched
            cases patched
          simp [different]
        | some rest =>
          have tail : rest = new ↔ current = old := by
            rw [← step, patched, Option.some.injEq]
          by_cases same : o = n
          · simp [same, tail]
          · by_cases current_old : c = o
            · simp [same, current_old, tail]
            · simp [same, current_old]

variable [DecidableEq κ]

def Change.effect (rows : Rows κ ν) : Change κ ν → Except Conflict (Rows κ ν)
  | .insert key new =>
      match rows key with
      | none => .ok (Function.update rows key (some new))
      | some _ => .error .CONFLICT
  | .update key old new =>
      match rows key with
      | none => .error .NOTFOUND
      | some current =>
          match patch old new current with
          | some row => .ok (Function.update rows key (some row))
          | none => .error .DATA
  | .delete key old =>
      match rows key with
      | none => .error .NOTFOUND
      | some current =>
          if current = old then .ok (Function.update rows key none) else .error .DATA

/-- Apply changes in order; at a conflict the handler says how to go on. -/
def applyAll (handler : Conflict → Action) :
    Rows κ ν → List (Change κ ν) → Except Conflict (Rows κ ν)
  | rows, [] => .ok rows
  | rows, change :: rest =>
      match change.effect rows with
      | .ok rows => applyAll handler rows rest
      | .error conflict =>
          match handler conflict with
          | .skip => applyAll handler rows rest
          | .abort => .error conflict

/-- The change from one value of a row to another. -/
def diff (key : κ) : Option (List ν) → Option (List ν) → Option (Change κ ν)
  | none, none => none
  | none, some new => some (.insert key new)
  | some old, none => some (.delete key old)
  | some old, some new => if old = new then none else some (.update key old new)

/-- The changes of the recorded rows, each with the value it had at first. -/
def changes (touched : List (κ × Option (List ν))) (rows : Rows κ ν) : List (Change κ ν) :=
  touched.filterMap fun entry => diff entry.1 entry.2 (rows entry.1)

/-- Inserts of rows that exist are skipped, other conflicts end the application. -/
def skipInserts : Conflict → Action
  | .CONFLICT => .skip
  | .DATA | .NOTFOUND => .abort

/-- The row meets a change to it as the change expects it, or holds the inserted row already. -/
def Meets (current before after : Option (List ν)) : Prop :=
  current = before ∨ before = none ∧ current = after

instance decidableMeets (current before after : Option (List ν)) :
    Decidable (Meets current before after) :=
  inferInstanceAs (Decidable (_ ∨ _ ∧ _))

omit [DecidableEq κ] in
theorem diff_key (key : κ) (before after : Option (List ν)) (change : Change κ ν)
    (h : diff key before after = some change) : change.key = key := by
  cases before with
  | none =>
    cases after with
    | none => cases h
    | some new =>
      cases h
      rfl
  | some old =>
    cases after with
    | none =>
      cases h
      rfl
    | some new =>
      rw [diff] at h
      split at h
      · cases h
      · cases h
        rfl

omit [DecidableEq κ] in
/-- A change has the columns of the row it leads to, or of the row it deletes. -/
theorem diff_columns (key : κ) (before after : Option (List ν)) (change : Change κ ν)
    (h : diff key before after = some change) :
    (∃ new, after = some new ∧ change.columns = new.length) ∨
      after = none ∧ ∃ old, before = some old ∧ change.columns = old.length := by
  cases before with
  | none =>
    cases after with
    | none => cases h
    | some new =>
      cases h
      exact .inl ⟨new, rfl, rfl⟩
  | some old =>
    cases after with
    | none =>
      cases h
      exact .inr ⟨rfl, old, rfl, rfl⟩
    | some new =>
      rw [diff] at h
      split at h
      · cases h
      · cases h
        exact .inl ⟨new, rfl, rfl⟩

/-- One recorded row: it gets its new value exactly if the change to it is met, and no
other row changes. -/
theorem applyAll_diff (rows : Rows κ ν) (key : κ) (before after : Option (List ν))
    (rest : List (Change κ ν))
    (shape : ∀ row new, rows key = some row → after = some new → row.length = new.length) :
    (∃ rows', applyAll skipInserts rows ((diff key before after).toList ++ rest) =
        applyAll skipInserts rows' rest ∧ (∀ other, other ≠ key → rows' other = rows other) ∧
        (rows' key = after ↔ Meets (rows key) before after)) ∨
      (∃ conflict, applyAll skipInserts rows ((diff key before after).toList ++ rest) =
        .error conflict) ∧ ¬ Meets (rows key) before after := by
  have elsewhere (value : Option (List ν)) (other : κ) (h : other ≠ key) :
      Function.update rows key value other = rows other := Function.update_of_ne h _ _
  cases before with
  | none =>
    cases after with
    | none => exact .inl ⟨rows, rfl, fun _ _ => rfl, by simp [Meets]⟩
    | some new =>
      cases found : rows key with
      | none =>
        refine .inl ⟨Function.update rows key (some new), ?_, elsewhere _, by simp [Meets]⟩
        simp [diff, applyAll, Change.effect, found]
      | some row =>
        refine .inl ⟨rows, ?_, fun _ _ => rfl, by simp [Meets, found]⟩
        simp [diff, applyAll, Change.effect, found, skipInserts]
  | some old =>
    cases after with
    | none =>
      cases found : rows key with
      | none =>
        refine .inr ⟨⟨.NOTFOUND, ?_⟩, by simp [Meets]⟩
        simp [diff, applyAll, Change.effect, found, skipInserts]
      | some row =>
        by_cases same : row = old
        · refine .inl ⟨Function.update rows key none, ?_, elsewhere _, by simp [Meets, same]⟩
          simp [diff, applyAll, Change.effect, found, same]
        · refine .inr ⟨⟨.DATA, ?_⟩, by simp [Meets, same]⟩
          simp [diff, applyAll, Change.effect, found, same, skipInserts]
    | some new =>
      by_cases unchanged : old = new
      · refine .inl ⟨rows, by simp [diff, unchanged], fun _ _ => rfl, by simp [Meets, unchanged]⟩
      · cases found : rows key with
        | none =>
          refine .inr ⟨⟨.NOTFOUND, ?_⟩, by simp [Meets]⟩
          simp [diff, unchanged, applyAll, Change.effect, found, skipInserts]
        | some row =>
          have exact_patch := patch_eq_new_iff old new row (shape row new found rfl)
          cases patched : patch old new row with
          | none =>
            rw [patched] at exact_patch
            refine .inr ⟨⟨.DATA, ?_⟩, by simp [Meets, ← exact_patch]⟩
            simp [diff, unchanged, applyAll, Change.effect, found, patched, skipInserts]
          | some result =>
            rw [patched] at exact_patch
            refine .inl ⟨Function.update rows key (some result), ?_, elsewhere _, ?_⟩
            · simp [diff, unchanged, applyAll, Change.effect, found, patched]
            · simpa [Meets] using exact_patch

/-- Applying the recorded changes leads to the state they were taken from exactly if every recorded
row meets its change and every other row is already as it should be. -/
theorem applyAll_changes_iff (touched : List (κ × Option (List ν))) (rows target : Rows κ ν)
    (nodup : (touched.map Prod.fst).Nodup)
    (shape : ∀ key ∈ touched.map Prod.fst, ∀ row new, rows key = some row → target key = some new →
      row.length = new.length) :
    applyAll skipInserts rows (changes touched target) = .ok target ↔
      (∀ entry ∈ touched, Meets (rows entry.1) entry.2 (target entry.1)) ∧
      ∀ key, key ∉ touched.map Prod.fst → rows key = target key := by
  induction touched generalizing rows with
  | nil => simp [changes, applyAll, funext_iff]
  | cons entry rest ih =>
    obtain ⟨key, before⟩ := entry
    rw [List.map_cons, List.nodup_cons] at nodup
    have split : changes ((key, before) :: rest) target =
        (diff key before (target key)).toList ++ changes rest target := by
      simp only [changes, List.filterMap_cons]
      cases diff key before (target key) with
      | none => rfl
      | some change => rfl
    have apart : ∀ other ∈ rest, other.1 ≠ key := by
      rintro other member rfl
      exact nodup.1 (List.mem_map.mpr ⟨other, member, rfl⟩)
    rw [split]
    obtain ⟨rows', same, elsewhere, met⟩ | ⟨⟨conflict, failed⟩, unmet⟩ :=
      applyAll_diff rows key before (target key) (changes rest target)
        (shape key (by simp))
    · have shape' : ∀ other ∈ rest.map Prod.fst, ∀ row new, rows' other = some row →
          target other = some new → row.length = new.length := by
        intro other member row new found
        have different : other ≠ key := by
          rintro rfl
          exact nodup.1 member
        rw [elsewhere other different] at found
        exact shape other (by simp [member]) row new found
      rw [same, ih rows' nodup.2 shape']
      constructor
      · intro given
        obtain ⟨touchedRows, otherRows⟩ := given
        constructor
        · intro other member
          rcases List.mem_cons.mp member with rfl | tail
          · exact met.mp (otherRows key nodup.1)
          · rw [← elsewhere other.1 (apart other tail)]
            exact touchedRows other tail
        · intro other outside
          rw [List.map_cons, List.mem_cons, not_or] at outside
          rw [← elsewhere other outside.1]
          exact otherRows other outside.2
      · intro given
        obtain ⟨touchedRows, otherRows⟩ := given
        constructor
        · intro other member
          rw [elsewhere other.1 (apart other member)]
          exact touchedRows other (by simp [member])
        · intro other outside
          by_cases here : other = key
          · rw [here]
            exact met.mpr (touchedRows (key, before) (by simp))
          · rw [elsewhere other here]
            exact otherRows other (by simp [here, outside])
    · rw [failed]
      constructor
      · intro h
        cases h
      · intro h
        exact absurd (h.1 (key, before) (by simp)) unmet

/-- The changes are the differences between two states, row by row. -/
structure Carries (data : List (Change κ ν)) (before after : Rows κ ν) : Prop where
  nodup : (data.map Change.key).Nodup
  differences : ∀ change, change ∈ data ↔
    diff change.key (before change.key) (after change.key) = some change

omit [DecidableEq κ] in
theorem changes_keys (touched : List (κ × Option (List ν))) (rows : Rows κ ν) :
    ((changes touched rows).map Change.key).Sublist (touched.map Prod.fst) := by
  induction touched with
  | nil => exact .slnil
  | cons entry rest ih =>
    rw [changes, List.filterMap_cons]
    cases taken : diff entry.1 entry.2 (rows entry.1) with
    | none => exact ih.cons _
    | some change =>
      rw [List.map_cons, List.map_cons, diff_key _ _ _ _ taken]
      exact ih.cons_cons _

omit [DecidableEq κ] in
/-- The recorded changes are all differences, if the records are right and complete. -/
theorem changes_carries (touched : List (κ × Option (List ν))) (before after : Rows κ ν)
    (nodup : (touched.map Prod.fst).Nodup) (recorded : ∀ entry ∈ touched, entry.2 = before entry.1)
    (elsewhere : ∀ key, key ∉ touched.map Prod.fst → after key = before key) :
    Carries (changes touched after) before after where
  nodup := nodup.sublist (changes_keys touched after)
  differences change := by
    constructor
    · intro member
      obtain ⟨entry, touches, taken⟩ := List.mem_filterMap.mp member
      rw [diff_key _ _ _ _ taken, ← recorded entry touches, taken]
    · intro taken
      by_cases touches : change.key ∈ touched.map Prod.fst
      · obtain ⟨entry, member, same⟩ := List.mem_map.mp touches
        rw [← same, ← recorded entry member] at taken
        exact List.mem_filterMap.mpr ⟨entry, member, taken⟩
      · rw [elsewhere change.key touches] at taken
        have unchanged : diff change.key (before change.key) (before change.key) = none := by
          cases before change.key with
          | none => rfl
          | some row => simp [diff]
        rw [unchanged] at taken
        cases taken

omit [DecidableEq κ] in
theorem carries_nil (before after : Rows κ ν) (h : Carries [] before after) : after = before := by
  funext key
  have none (change : Change κ ν) : diff change.key (before change.key) (after change.key) ≠
      some change := by
    intro taken
    cases (h.differences change).mpr taken
  cases old : before key with
  | none =>
    cases new : after key with
    | none => rfl
    | some row => exact absurd (by simp [Change.key, diff, old, new]) (none (.insert key row))
  | some row =>
    cases new : after key with
    | none => exact absurd (by simp [Change.key, diff, old, new]) (none (.delete key row))
    | some row' =>
      by_contra different
      have distinct : row ≠ row' := by
        rintro rfl
        exact different rfl
      exact absurd (by simp [Change.key, diff, old, new, distinct]) (none (.update key row row'))

/-- What a change does to the row it is about. -/
def Change.onRow (current : Option (List ν)) : Change κ ν → Except Conflict (Option (List ν))
  | .insert _ new =>
      match current with
      | none => .ok (some new)
      | some _ => .error .CONFLICT
  | .update _ old new =>
      match current with
      | none => .error .NOTFOUND
      | some row =>
          match patch old new row with
          | some row => .ok (some row)
          | none => .error .DATA
  | .delete _ old =>
      match current with
      | none => .error .NOTFOUND
      | some row => if row = old then .ok none else .error .DATA

theorem effect_onRow (rows : Rows κ ν) (change : Change κ ν) :
    change.effect rows =
      (change.onRow (rows change.key)).map (Function.update rows change.key) := by
  cases change with
  | insert key new =>
    cases found : rows key with
    | none => simp [Change.effect, Change.onRow, Change.key, found, Except.map]
    | some row => simp [Change.effect, Change.onRow, Change.key, found, Except.map]
  | update key old new =>
    cases found : rows key with
    | none => simp [Change.effect, Change.onRow, Change.key, found, Except.map]
    | some row =>
      cases patched : patch old new row with
      | none => simp [Change.effect, Change.onRow, Change.key, found, patched, Except.map]
      | some result => simp [Change.effect, Change.onRow, Change.key, found, patched, Except.map]
  | delete key old =>
    cases found : rows key with
    | none => simp [Change.effect, Change.onRow, Change.key, found, Except.map]
    | some row =>
      by_cases same : row = old
      · simp [Change.effect, Change.onRow, Change.key, found, same, Except.map]
      · simp [Change.effect, Change.onRow, Change.key, found, same, Except.map]

omit [DecidableEq κ] in
/-- One change to a row, with its conflict handled. -/
def Change.settle (handler : Conflict → Action) (current : Option (List ν)) (change : Change κ ν) :
    Except Conflict (Option (List ν)) :=
  match change.onRow current with
  | .ok row => .ok row
  | .error conflict =>
      match handler conflict with
      | .skip => .ok current
      | .abort => .error conflict

/-- Changes to one row. -/
def applyRow (handler : Conflict → Action) :
    Option (List ν) → List (Change κ ν) → Except Conflict (Option (List ν))
  | row, [] => .ok row
  | row, change :: rest =>
      match change.settle handler row with
      | .ok row => applyRow handler row rest
      | .error conflict => .error conflict

omit [DecidableEq ν] in
/-- The changes to one row, in their order. -/
def changesTo (key : κ) (data : List (Change κ ν)) : List (Change κ ν) :=
  data.filter fun change => change.key = key

theorem applyAll_cons (handler : Conflict → Action) (rows : Rows κ ν) (change : Change κ ν)
    (rest : List (Change κ ν)) :
    applyAll handler rows (change :: rest) =
      match change.settle handler (rows change.key) with
      | .ok row => applyAll handler (Function.update rows change.key row) rest
      | .error conflict => .error conflict := by
  rw [applyAll, effect_onRow, Change.settle]
  cases change.onRow (rows change.key) with
  | ok row => rfl
  | error conflict =>
    cases handled : handler conflict with
    | skip => simp [Except.map, handled]
    | abort => simp [Except.map, handled]

theorem applyAll_append (handler : Conflict → Action) (rows result : Rows κ ν)
    (data more : List (Change κ ν)) :
    applyAll handler rows (data ++ more) = .ok result ↔
      ∃ between, applyAll handler rows data = .ok between ∧
        applyAll handler between more = .ok result := by
  induction data generalizing rows with
  | nil => simp [applyAll]
  | cons change data ih =>
    rw [List.cons_append, applyAll_cons, applyAll_cons]
    cases change.settle handler (rows change.key) with
    | ok row => exact ih _
    | error conflict => simp

/-- Changes apply exactly if they apply on every row by itself. -/
theorem applyAll_ok_iff (handler : Conflict → Action) (rows result : Rows κ ν)
    (data : List (Change κ ν)) :
    applyAll handler rows data = .ok result ↔
      ∀ key, applyRow handler (rows key) (changesTo key data) = .ok (result key) := by
  induction data generalizing rows with
  | nil => simp [applyAll, applyRow, changesTo, funext_iff]
  | cons change rest ih =>
    have own : changesTo change.key (change :: rest) = change :: changesTo change.key rest := by
      simp [changesTo]
    have other (key : κ) (h : key ≠ change.key) :
        changesTo key (change :: rest) = changesTo key rest := by
      simp [changesTo, Ne.symm h]
    rw [applyAll_cons]
    cases settled : change.settle handler (rows change.key) with
    | error conflict =>
      constructor
      · intro h
        cases h
      · intro h
        have failed := h change.key
        rw [own, applyRow, settled] at failed
        cases failed
    | ok row =>
      simp only
      rw [ih]
      constructor
      · intro h key
        have applied := h key
        by_cases here : key = change.key
        · rw [here, Function.update_self] at applied
          rw [here, own, applyRow, settled]
          exact applied
        · rw [Function.update_of_ne here] at applied
          rw [other key here]
          exact applied
      · intro h key
        have applied := h key
        by_cases here : key = change.key
        · rw [here, own, applyRow, settled] at applied
          rw [here, Function.update_self]
          exact applied
        · rw [other key here] at applied
          rw [Function.update_of_ne here]
          exact applied

/-- A change that can be made a second time: an insert is skipped then, an update finds other values
unless it changes nothing, a delete finds no row. -/
def Change.Repeats : Change κ ν → Prop
  | .insert _ _ => True
  | .update _ old new => old = new
  | .delete _ _ => False

theorem patch_again_iff (old new before after : List ν) (h : patch old new before = some after) :
    patch old new after = some after ↔ old = new := by
  induction old generalizing new before after with
  | nil =>
    cases new with
    | nil =>
      cases before with
      | nil =>
        cases h
        simp [patch]
      | cons c before => simp [patch] at h
    | cons n new => simp [patch] at h
  | cons o old ih =>
    cases new with
    | nil => simp [patch] at h
    | cons n new =>
      cases before with
      | nil => simp [patch] at h
      | cons c before =>
        rw [patch] at h
        cases patched : patch old new before with
        | none => simp [patched] at h
        | some rest =>
          have tail := ih new before rest patched
          by_cases same : o = n
          · obtain rfl : c :: rest = after := by simpa [patched, same] using h
            rw [patch, same]
            cases again : patch old new rest with
            | none =>
              rw [again] at tail
              simpa using tail
            | some row =>
              rw [again] at tail
              simpa using tail
          · by_cases old_value : c = o
            · obtain rfl : n :: rest = after := by simpa [patched, same, old_value] using h
              rw [patch]
              cases patch old new rest with
              | none => simp [same]
              | some row => simp [same, Ne.symm same]
            · simp [patched, same, old_value] at h

omit [DecidableEq κ] in
/-- On the row it has led to, a change leads nowhere exactly if it repeats. -/
theorem settle_again_iff (change : Change κ ν) (before after : Option (List ν))
    (h : change.settle skipInserts before = .ok after) :
    change.settle skipInserts after = .ok after ↔ change.Repeats := by
  cases change with
  | insert key new =>
    cases before with
    | none =>
      cases h
      simp [Change.settle, Change.onRow, skipInserts, Change.Repeats]
    | some row =>
      cases h
      simp [Change.settle, Change.onRow, skipInserts, Change.Repeats]
  | update key old new =>
    cases before with
    | none => cases h
    | some row =>
      cases patched : patch old new row with
      | none => simp [Change.settle, Change.onRow, patched, skipInserts] at h
      | some result =>
        obtain rfl : some result = after := by simpa [Change.settle, Change.onRow, patched] using h
        rw [Change.Repeats, ← patch_again_iff old new row result patched]
        cases again : patch old new result with
        | none => simp [Change.settle, Change.onRow, again, skipInserts]
        | some row => simp [Change.settle, Change.onRow, again]
  | delete key old =>
    cases before with
    | none => cases h
    | some row =>
      by_cases same : row = old
      · obtain rfl : none = after := by simpa [Change.settle, Change.onRow, same] using h
        simp [Change.settle, Change.onRow, skipInserts, Change.Repeats]
      · simp [Change.settle, Change.onRow, same, skipInserts] at h

omit [DecidableEq ν] in
theorem changesTo_nodup (data : List (Change κ ν)) (nodup : (data.map Change.key).Nodup)
    (change : Change κ ν) (member : change ∈ data) : changesTo change.key data = [change] := by
  induction data with
  | nil => cases member
  | cons first rest ih =>
    rw [List.map_cons, List.nodup_cons] at nodup
    have apart : ∀ other ∈ rest, other.key ≠ first.key := by
      intro other hother same
      exact nodup.1 (List.mem_map.mpr ⟨other, hother, same⟩)
    rcases List.mem_cons.mp member with rfl | later
    · have none : changesTo change.key rest = [] := by
        simpa [changesTo] using apart
      rw [changesTo, List.filter_cons_of_pos (by simp), ← changesTo, none]
    · have skipped : changesTo change.key (first :: rest) = changesTo change.key rest := by
        simp [changesTo, Ne.symm (apart change later)]
      rw [skipped, ih nodup.2 later]

/-- Changes to different rows can be made a second time exactly if every one of them can. -/
theorem applyAll_again_iff (rows result : Rows κ ν) (data : List (Change κ ν))
    (nodup : (data.map Change.key).Nodup) (h : applyAll skipInserts rows data = .ok result) :
    applyAll skipInserts result data = .ok result ↔ ∀ change ∈ data, change.Repeats := by
  have first := (applyAll_ok_iff skipInserts rows result data).mp h
  have once (change : Change κ ν) (member : change ∈ data) (row after : Option (List ν)) :
      applyRow skipInserts row (changesTo change.key data) = .ok after ↔
        change.settle skipInserts row = .ok after := by
    rw [changesTo_nodup data nodup change member, applyRow]
    cases change.settle skipInserts row with
    | ok row => simp [applyRow]
    | error conflict => simp
  rw [applyAll_ok_iff]
  constructor
  · intro again change member
    have made := (once change member _ _).mp (first change.key)
    exact (settle_again_iff change _ _ made).mp ((once change member _ _).mp (again change.key))
  · intro repeats key
    by_cases touched : ∃ change ∈ data, change.key = key
    · obtain ⟨change, member, rfl⟩ := touched
      have made := (once change member _ _).mp (first change.key)
      exact (once change member _ _).mpr
        ((settle_again_iff change _ _ made).mpr (repeats change member))
    · have untouched : changesTo key data = [] := by
        simpa [changesTo] using touched
      rw [untouched]
      rfl

end Changes
