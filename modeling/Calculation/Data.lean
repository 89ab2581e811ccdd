import Calculation.Text.Input

/-!
Data: the values that expressions, rules and trees are written as, to be stored or exchanged.

A value with several parts is written as a record, its parts by name, and can also be read from a
list, its parts by position.  A record may hold more than is asked of it.  One of several
alternatives is a record whose only name is that of the alternative, or that name alone if there is
nothing more to it.
-/

namespace Calculation

/-- A value that can be written down. -/
inductive Data where
  | null
  | boolean (value : Bool)
  /-- The number `mantissa / 10 ^ places`. -/
  | number (mantissa : Int) (places : Nat)
  | text (value : String)
  | list (items : List Data)
  /-- Values by their names. -/
  | record (fields : List (String × Data))
deriving Inhabited

namespace Data

/-! ## Writing -/

/-- A count is written as a number without decimal places. -/
def ofNat (value : Nat) : Data := .number value 0

/-- A text that may be missing is written as null if it is. -/
def ofText? : Option String → Data
  | some value => .text value
  | none => .null

/-- A list is written item by item. -/
def ofList {α : Type} (write : α → Data) (items : List α) : Data := .list (items.map write)

/-! ## Reading -/

def text? : Data → Option String
  | .text value => some value
  | _ => none

def boolean? : Data → Option Bool
  | .boolean value => some value
  | _ => none

/-- Reads a count, which must fit into 64 bits. -/
def natural? : Data → Option Nat
  | .number (.ofNat value) 0 => if value < Text.numeralBound then some value else none
  | _ => none

def list? {α : Type} (read? : Data → Option α) : Data → Option (List α)
  | .list items => items.mapM read?
  | _ => none

def alternative? : Data → Option String
  | .text name => some name
  | .record [(name, .null)] => some name
  | _ => none

/-- Whether the value can have `count` parts: a list must have as many items. -/
def hasParts (count : Nat) : Data → Bool
  | .list items => items.length == count
  | .record _ => true
  | _ => false

/-- The part with the name, or at the position of a list. -/
def part? (data : Data) (position : Nat) (name : String) : Option Data :=
  match data with
  | .list items => items[position]?
  | .record fields => fields.lookup name
  | _ => none

/-- Reads the part with the name, or at the position of a list. -/
def read? {α : Type} (data : Data) (position : Nat) (name : String) (read : Data → Option α) :
    Option α :=
  (data.part? position name).bind read

/-- Reads a part that is a text, and that may be missing or null. -/
def readText? (data : Data) (position : Nat) (name : String) : Option (Option String) :=
  match data.part? position name with
  | none => some none
  | some .null => some none
  | some part => part.text?.map some

/-- A value found in a list of named ones is smaller than the list. -/
theorem sizeOf_lt_of_lookup {fields : List (String × Data)} {name : String} {part : Data}
    (found : fields.lookup name = some part) : sizeOf part < sizeOf fields := by
  induction fields with
  | nil => simp at found
  | cons field rest ih =>
    obtain ⟨key, value⟩ := field
    rw [List.lookup_cons] at found
    split at found
    · cases found
      simp
      omega
    · have := ih found
      simp
      omega

/-- A part is smaller than the whole, so reading parts of parts comes to an end. -/
theorem sizeOf_lt_of_part? {data part : Data} {position : Nat} {name : String}
    (found : data.part? position name = some part) : sizeOf part < sizeOf data := by
  cases data with
  | list items =>
    have := List.sizeOf_lt_of_mem (List.mem_of_getElem? found)
    simp
    omega
  | record fields =>
    have := sizeOf_lt_of_lookup found
    simp
    omega
  | null => simp [part?] at found
  | boolean => simp [part?] at found
  | number => simp [part?] at found
  | text => simp [part?] at found

end Data

end Calculation
