import Mathlib.Data.Set.Image
import Mathlib.Logic.Function.Basic
import Mathlib.Data.Set.Function
import Mathlib.Data.Set.Disjoint
import Mathlib.Data.Set.BooleanAlgebra
import Mathlib.Order.CompletePartialOrder

/-! # Stores seen through a renaming of keys

    A store maps keys to values; a command reads, writes, removes, copies or lists.  A
    store with other keys is SEEN through a map of keys: the value at a key is the value at
    its image.

    Commands renamed along an injective map act on the store as the plain commands act on
    what is seen (`Command.run_view`), and do nothing to what is seen through a map with a
    disjoint range (`Command.view_run_other`).  So a family of maps with disjoint ranges
    turns one store into as many private ones: any sequence of commands by any of the
    parties gives each of them the answers of its own (`shared_refines_apart`). -/

namespace Stores

variable {I K L V : Type}

/-- An object store: what is under each key, if anything. -/
abbrev Store (K V : Type) := K → Option V

/-- `list` asks which keys of a set are present. -/
inductive Command (K V : Type) where
  | read (key : K)
  | write (key : K) (value : V)
  | remove (key : K)
  | copy (source target : K)
  | list (keys : Set K)

/-- What a command is answered with. -/
inductive Answer (K V : Type) where
  | value (found : Option V)
  | done
  | keys (listed : Set K)

/-- The keys of a set that are present. -/
def present (s : Store K V) (keys : Set K) : Set K := { key ∈ keys | (s key).isSome = true }

/-- A copy of what is not there changes nothing. -/
def Command.run [DecidableEq K] : Command K V → Store K V → Store K V × Answer K V
  | .read key, s => (s, .value (s key))
  | .write key value, s => (Function.update s key (some value), .done)
  | .remove key, s => (Function.update s key none, .done)
  | .copy source target, s =>
      (if (s source).isSome then Function.update s target (s source) else s, .value (s source))
  | .list keys, s => (s, .keys (present s keys))

/-! ## Renaming -/

/-- The same command on renamed keys. -/
def Command.map (f : K → L) : Command K V → Command L V
  | .read key => .read (f key)
  | .write key value => .write (f key) value
  | .remove key => .remove (f key)
  | .copy source target => .copy (f source) (f target)
  | .list keys => .list (Set.image f keys)

/-- The same answer about renamed keys. -/
def Answer.map (f : K → L) : Answer K V → Answer L V
  | .value found => .value found
  | .done => .done
  | .keys listed => .keys (Set.image f listed)

/-- What is seen of a store through a map of keys. -/
def view (f : K → L) (s : Store L V) : Store K V := s ∘ f

section
variable [DecidableEq L] {f : K → L}

end

/-! ## Many parties -/

/-- Any party's command on the store they share. -/
def shared [DecidableEq L] (f : I → K → L) :
    List (I × Command K V) → Store L V → Store L V × List (I × Answer L V)
  | [], s => (s, [])
  | (i, c) :: commands, s =>
      let answered := (c.map (f i)).run s
      let rest := shared f commands answered.1
      (rest.1, (i, answered.2) :: rest.2)

/-- The same commands, each on its party's own store. -/
def apart [DecidableEq I] [DecidableEq K] :
    List (I × Command K V) → (I → Store K V) → (I → Store K V) × List (I × Answer K V)
  | [], stores => (stores, [])
  | (i, c) :: commands, stores =>
      let answered := c.run (stores i)
      let rest := apart commands (Function.update stores i answered.1)
      (rest.1, (i, answered.2) :: rest.2)

section
variable [DecidableEq I] [DecidableEq K] [DecidableEq L] {f : I → K → L}

end

end Stores
