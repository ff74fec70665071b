/-
  ShaderFlow.Table — tables that keep the order in which keys were first added.

  Main definitions:
    * `Table.get?`, `Table.keys` — looking up;
    * `Table.put` — adds a pair, or replaces the value of a key where it stands;
    * `Table.keep` — adds a pair unless the key is there;
    * `Table.change` — changes the value of a key, adding the key if it is not there.
-/

namespace ShaderFlow

/-- A table of pairs in the order in which their keys were first added. -/
abbrev Table (κ α : Type) := List (κ × α)

namespace Table

variable {κ α : Type} [BEq κ]

/-- The value of a key. -/
def get? (t : Table κ α) (k : κ) : Option α := (t.find? (·.1 == k)).map (·.2)

/-- Whether a key is there. -/
def has (t : Table κ α) (k : κ) : Bool := t.any (·.1 == k)

omit [BEq κ] in
/-- The keys, in order. -/
def keys (t : Table κ α) : List κ := t.map (·.1)

omit [BEq κ] in
/-- The values, in order. -/
def values (t : Table κ α) : List α := t.map (·.2)

/-- Changes the value of a key, or adds the key at the end with the changed default. -/
def change (t : Table κ α) (k : κ) (default : α) (f : α → α) : Table κ α :=
  if t.has k then t.map fun (key, a) => if key == k then (key, f a) else (key, a)
  else t ++ [(k, f default)]

/-- Gives a key a value; a key that was there keeps its place. -/
def put (t : Table κ α) (k : κ) (a : α) : Table κ α := t.change k a fun _ => a

/-- Gives a key a value unless it has one. -/
def keep (t : Table κ α) (k : κ) (a : α) : Table κ α := if t.has k then t else t ++ [(k, a)]

end Table

end ShaderFlow
