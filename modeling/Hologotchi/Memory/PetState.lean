import Hologotchi.Affect.Dynamics
import Hologotchi.Body.Model
import Hologotchi.Memory.Store

/-! The one row of the table `pet_state`, beside the memories (`host/memory.py`). -/
namespace Hologotchi.Memory

open Python Body

/-- A row of `pet_state`; what is stored as JSON stands as it was before. -/
structure PetRow where
  affect : Option (List (String × ℚ)) := none
  lastInteraction : Option ℚ := none
  body : Option BodyRow := none
  updatedAt : ℚ
  deriving DecidableEq

/-- Both tables. -/
structure Database where
  store : Store := {}
  petState : Option PetRow := none

namespace Database

variable (d : Database)

def mapStore (change : Store → Store) : Database := { d with store := change d.store }

/-- The statement of `save_affect`. -/
def upsertAffect (now : ℚ) (affect : List (String × ℚ)) (lastInteraction : ℚ) : Database :=
  let row : PetRow := d.petState.getD { updatedAt := now }
  { d with petState := some { row with
      affect := some affect
      lastInteraction := some lastInteraction
      updatedAt := now } }

/-- The statement of `save_body`. -/
def upsertBody (now : ℚ) (body : Option BodyRow) : Database :=
  let row : PetRow := d.petState.getD { updatedAt := now }
  { d with petState := some { row with body := body, updatedAt := now } }

def saveAffect (now : ℚ) (affect : List (String × ℚ)) (lastInteraction : ℚ) : Database :=
  if !d.store.writesEnabled then d else d.upsertAffect now affect lastInteraction

def saveBody (now : ℚ) (body : Option BodyRow) : Database :=
  if !d.store.writesEnabled then d else d.upsertBody now body

/-- `reset` on both tables. -/
def reset : Database where
  store := d.store.reset

end Database

end Hologotchi.Memory
