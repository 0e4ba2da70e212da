/-
# Scripted faces

A script is a roller that replays a list of faces and starts over at its end.
A face is raised to 1 and then cut to the sides of the die it is dealt to; an
empty script shows 1 on every die. The place in the script counts the faces
dealt so far, modulo 2⁶⁴.

Key definitions: `Script`, `Script.face`, `Script.roller`.
Key theorem: `Script.face_mem`.
-/
import DiceTower.Roll.Roller

namespace DiceTower

/-- A list of faces that is replayed. -/
structure Script where
  /-- The faces, in order. -/
  faces : List Nat
  /-- How many faces were dealt, modulo 2⁶⁴. -/
  place : Nat
deriving DecidableEq

namespace Script

/-- A script at its start. -/
def ofFaces (faces : List Nat) : Script := ⟨faces, 0⟩

/-- The face that the script shows on a die. -/
def face (s : Script) (sides : Nat) : Nat :=
  match s.faces[s.place % s.faces.length]? with
  | none => 1
  | some f => min (max f 1) sides

/-- The script after one die. An empty script has no place to move from. -/
def advance (s : Script) : Script :=
  if s.faces = [] then s else { s with place := (s.place + 1) % 18446744073709551616 }

/-- The roller that replays scripts; it has every die. -/
def roller : Roller Script where
  die sides s := (s.face sides, s.advance)
  hasDie _ := true

/-- A scripted face is one of the die's, whatever the script holds. -/
theorem face_mem (s : Script) {sides : Nat} (h : 1 ≤ sides) :
    1 ≤ s.face sides ∧ s.face sides ≤ sides := by
  unfold face
  split <;> omega

end Script
end DiceTower
