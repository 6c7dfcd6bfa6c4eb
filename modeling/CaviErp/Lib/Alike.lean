import CaviErp.Lib.Json

/-!
# Values that are alike

JSON values are compared as such: an object is what it holds under its keys, in whatever order these were
written, and a number is no Boolean. What is said here of objects means those with distinct keys.
-/

namespace Py

namespace Json

mutual

/-- Equal JSON values, but for the order of the keys in objects. -/
def alike : Json → Json → Bool
  | null, null => true
  | bool a, bool b => a == b
  | int a, int b => a == b
  | float a, float b => decide (a = b)
  | str a, str b => a == b
  | arr xs, arr ys => alikeList xs ys
  | obj kvs, obj kvs' => kvs.length == kvs'.length && alikeItems kvs kvs'
  | _, _ => false

def alikeList : List Json → List Json → Bool
  | [], [] => true
  | x :: xs, y :: ys => alike x y && alikeList xs ys
  | _, _ => false

/-- The items are found in the other object. -/
def alikeItems : Obj → Obj → Bool
  | [], _ => true
  | (k, v) :: kvs, o =>
    (match o.get? k with
      | some w => alike v w
      | none => false) && alikeItems kvs o

end

mutual

/-- A value without floats, whose objects have distinct keys. -/
def exact : Json → Bool
  | float _ => false
  | arr xs => exactList xs
  | obj kvs => decide (Obj.keys kvs).Nodup && exactItems kvs
  | _ => true

def exactList : List Json → Bool
  | [] => true
  | x :: xs => exact x && exactList xs

def exactItems : Obj → Bool
  | [] => true
  | (_, v) :: kvs => exact v && exactItems kvs

end

end Json

end Py
