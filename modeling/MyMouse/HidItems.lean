import Mathlib.Algebra.Ring.Nat
import Mathlib.Data.List.Basic

namespace HidItems

/-- The number these bytes are, the first one being the lowest. -/
def leNat : List (BitVec 8) → Nat
  | [] => 0
  | byte :: rest => byte.toNat + 256 * leNat rest

/-- The lowest `size` bits of `n`, as a two's complement number. -/
def signedOf (size n : Nat) : Int :=
  if 2 ^ size ≤ 2 * (n % 2 ^ size) then (n % 2 ^ size : Nat) - (2 ^ size : Nat) else (n % 2 ^ size : Nat)

inductive ItemType
  | mainType
  | globalType
  | localType
  deriving DecidableEq

/-- A short item. -/
structure Item where
  type : ItemType
  tag : Nat
  data : List (BitVec 8)
  deriving DecidableEq

namespace Item

def unsigned (item : Item) : Nat := leNat item.data

def signed (item : Item) : Int := signedOf (8 * item.data.length) (leNat item.data)

end Item

def itemType (firstByte : BitVec 8) : Option ItemType :=
  match (firstByte >>> 2 &&& 3#8).toNat with
  | 0 => some .mainType
  | 1 => some .globalType
  | 2 => some .localType
  | _ => none

def dataSize (firstByte : BitVec 8) : Nat :=
  match (firstByte &&& 3#8).toNat with
  | 0 => 0
  | 1 => 1
  | 2 => 2
  | _ => 4

def parseFuel : Nat → List (BitVec 8) → Option (List Item)
  | _, [] => some []
  | 0, _ => none
  | fuel + 1, firstByte :: rest => do
    let type ← itemType firstByte
    let size := dataSize firstByte
    if rest.length < size then none
    else
      let items ← parseFuel fuel (rest.drop size)
      some (⟨type, (firstByte >>> 4).toNat, rest.take size⟩ :: items)

/-- The items of a report descriptor; `none` when one is cut off, or is of a reserved type. -/
def parse (bytes : List (BitVec 8)) : Option (List Item) := parseFuel bytes.length bytes

structure Usage where
  page : Nat
  id : Nat
  deriving DecidableEq

structure Globals where
  usagePage : Nat
  logicalMinimum : Int
  logicalMaximum : Int
  reportSize : Nat
  reportCount : Nat
  reportId : Nat
  deriving DecidableEq

structure Locals where
  usages : List Usage
  usageMinimum : Option Usage
  usageMaximum : Option Usage
  deriving DecidableEq

/-- A field of an input report, `offset` bits behind the report id. -/
structure Field where
  usage : Option Usage
  reportId : Nat
  offset : Nat
  size : Nat
  logicalMinimum : Int
  logicalMaximum : Int
  constant : Bool
  isVariable : Bool
  relative : Bool
  deriving DecidableEq

structure State where
  globals : Globals
  stack : List Globals
  locals : Locals
  depth : Nat
  fields : List Field
  deriving DecidableEq

def Locals.empty : Locals := ⟨[], none, none⟩

def State.start : State :=
  { globals := ⟨0, 0, 0, 0, 0, 0⟩, stack := [], locals := .empty, depth := 0, fields := [] }

/-- The length of the input report with this id, without the id. -/
def bitLength (fields : List Field) (reportId : Nat) : Nat :=
  ((fields.filter (fun f => f.reportId = reportId)).map Field.size).sum

/-- The usage of the `i`-th field of a main item: the last one stands for all that follow. -/
def usageAt (usages : List Usage) (i : Nat) : Option Usage :=
  usages[min i (usages.length - 1)]?

/-- The fields an Input item adds. -/
def inputFields (s : State) (flags : Nat) : List Field :=
  (List.range s.globals.reportCount).map (fun i =>
    { usage := usageAt s.locals.usages i
      reportId := s.globals.reportId
      offset := bitLength s.fields s.globals.reportId + i * s.globals.reportSize
      size := s.globals.reportSize
      logicalMinimum := s.globals.logicalMinimum
      logicalMaximum := s.globals.logicalMaximum
      constant := flags.testBit 0
      isVariable := flags.testBit 1
      relative := flags.testBit 2 })

/-- Output and Feature items describe other reports. -/
def mainItem (s : State) (item : Item) : Option State :=
  match item.tag with
  | 8 => some { s with locals := .empty, fields := s.fields ++ inputFields s item.unsigned }
  | 9 => some { s with locals := .empty }
  | 10 => some { s with locals := .empty, depth := s.depth + 1 }
  | 11 => some { s with locals := .empty }
  | 12 => if s.depth = 0 then none else some { s with locals := .empty, depth := s.depth - 1 }
  | _ => none

/-- Physical limits and units do not matter to the layout. -/
def globalItem (s : State) (item : Item) : Option State :=
  match item.tag with
  | 0 => some { s with globals := { s.globals with usagePage := item.unsigned } }
  | 1 => some { s with globals := { s.globals with logicalMinimum := item.signed } }
  | 2 => some { s with globals := { s.globals with logicalMaximum := item.signed } }
  | 3 => some s
  | 4 => some s
  | 5 => some s
  | 6 => some s
  | 7 => some { s with globals := { s.globals with reportSize := item.unsigned } }
  | 8 => some { s with globals := { s.globals with reportId := item.unsigned } }
  | 9 => some { s with globals := { s.globals with reportCount := item.unsigned } }
  | 10 => some { s with stack := s.globals :: s.stack }
  | 11 =>
    match s.stack with
    | globals :: stack => some { s with globals := globals, stack := stack }
    | [] => none
  | _ => none

/-- A usage of four bytes brings its page along. -/
def usageOf (s : State) (item : Item) : Usage :=
  if item.data.length = 4 then ⟨item.unsigned / 2 ^ 16, item.unsigned % 2 ^ 16⟩
  else ⟨s.globals.usagePage, item.unsigned⟩

/-- A usage minimum and maximum stand for the usages between them once both are there. -/
def closeRange (locals : Locals) : Locals :=
  match locals.usageMinimum, locals.usageMaximum with
  | some low, some high =>
    { usages := locals.usages ++
        (List.range (high.id + 1 - low.id)).map (fun i => ⟨low.page, low.id + i⟩)
      usageMinimum := none
      usageMaximum := none }
  | _, _ => locals

def localItem (s : State) (item : Item) : State :=
  match item.tag with
  | 0 => { s with locals := { s.locals with usages := s.locals.usages ++ [usageOf s item] } }
  | 1 => { s with locals := closeRange { s.locals with usageMinimum := some (usageOf s item) } }
  | 2 => { s with locals := closeRange { s.locals with usageMaximum := some (usageOf s item) } }
  | _ => s

def step (s : State) (item : Item) : Option State :=
  match item.type with
  | .mainType => mainItem s item
  | .globalType => globalItem s item
  | .localType => some (localItem s item)

/-- The fields of the input reports a report descriptor describes. -/
def interpret (bytes : List (BitVec 8)) : Option (List Field) := do
  let items ← parse bytes
  let s ← items.foldlM step .start
  if s.depth = 0 then some s.fields else none

/-- A field's value in a report, without its id: signed if its logical minimum is negative. -/
def Field.decode (f : Field) (report : List (BitVec 8)) : Int :=
  if f.logicalMinimum < 0 then signedOf f.size (leNat report / 2 ^ f.offset)
  else (leNat report / 2 ^ f.offset % 2 ^ f.size : Nat)

/-- What a host makes of a report: the usages of its data and their values. -/
def decodeReport (fields : List Field) (reportId : Nat) (report : List (BitVec 8)) :
    List (Option Usage × Int) :=
  (fields.filter (fun f => f.reportId = reportId && !f.constant)).map
    (fun f => (f.usage, f.decode report))

theorem signedOf_toNat {w : Nat} (x : BitVec w) : signedOf w x.toNat = x.toInt := by
  unfold signedOf
  rw [Nat.mod_eq_of_lt x.isLt, BitVec.toInt_eq_toNat_cond]
  split
  next hle => rw [if_neg (by omega)]
  next hlt => rw [if_pos (by omega)]

theorem signedOf_mod (size n : Nat) : signedOf size (n % 2 ^ size) = signedOf size n := by
  unfold signedOf
  rw [Nat.mod_mod]

end HidItems
