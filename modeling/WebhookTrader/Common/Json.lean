import WebhookTrader.Common.Cxx

/-!
# JSON values and their readers

The values of `nlohmann::json` and the few accessors the program reads
them with. `value` looks a key up with a default and raises where the
receiver is no object or the stored value has another type; a `get` is a
conversion and raises on a type mismatch; `contains` is false on anything
but an object. An object's fields are listed with their keys, which the
library keeps apart.
-/

namespace WebhookTrader

/-- **A parsed JSON value.** -/
inductive Json
  | null
  | bool (b : Bool)
  /-- A number without fraction or exponent. -/
  | int (n : ℤ)
  /-- A number with one, exactly. -/
  | float (q : ℚ)
  | str (s : String)
  | arr (xs : List Json)
  | obj (fields : List (String × Json))
  deriving Inhabited

namespace Json

/-- The value of a field. -/
def find? (j : Json) (key : String) : Option Json :=
  match j with
  | obj fields => fields.lookup key
  | _ => none

/-- `contains`. -/
def contains (j : Json) (key : String) : Bool := (j.find? key).isSome

def isObject : Json → Bool
  | obj _ => true
  | _ => false

def isString : Json → Bool
  | str _ => true
  | _ => false

def isNumber : Json → Bool
  | int _ => true
  | float _ => true
  | _ => false

def isBoolean : Json → Bool
  | bool _ => true
  | _ => false

/-- Truncation towards zero, the conversion of a double to an integer. -/
def truncate (q : ℚ) : ℤ := q.num.tdiv q.den

/-- `get<std::string>()`. -/
def getString : Json → Except Exception String
  | str s => .ok s
  | _ => .error .typeError302

/-- `get<double>()`: any number and nothing else. -/
def getDouble : Json → Except Exception ℚ
  | int n => .ok n
  | float q => .ok q
  | _ => .error .typeError302

/-- `get<int64_t>()`: any number and nothing else, an unsigned one wrapped
round. -/
def getInt64 : Json → Except Exception ℤ
  | int n => .ok (n.bmod (2 ^ 64))
  | float q => .ok (truncate q)
  | _ => .error .typeError302

/-- `get<int>()`: the library also converts a boolean to an `int`. -/
def getInt : Json → Except Exception ℤ
  | bool b => .ok (if b then 1 else 0)
  | j => (·.bmod (2 ^ 32)) <$> getInt64 j

/-- `get<int>()` of a counter. Counters do not overflow here, and neither
does what is read. -/
def getCount : Json → Except Exception ℤ
  | bool b => .ok (if b then 1 else 0)
  | int n => .ok n
  | float q => .ok (truncate q)
  | _ => .error .typeError302

/-- `get<uint64_t>()`. -/
def getUInt64 : Json → Except Exception ℕ
  | int n => .ok (n % 2 ^ 64).toNat
  | float q => .ok (truncate q % 2 ^ 64).toNat
  | _ => .error .typeError302

/-- `get<bool>()`. -/
def getBool : Json → Except Exception Bool
  | bool b => .ok b
  | _ => .error .typeError302

/-- `items()`: the fields of an object, an array's elements under their
numbers, nothing of a null, and any other value under no name. -/
def items : Json → List (String × Json)
  | obj fields => fields
  | arr xs => xs.zipIdx.map fun x => (toString x.2, x.1)
  | null => []
  | j => [("", j)]

/-- The values a range-based loop goes through. -/
def elements (j : Json) : List Json := j.items.map (·.2)

/-- `operator[]` with a key: a null becomes an object without the field,
whose value is then null. -/
def index (j : Json) (key : String) : Except Exception Json :=
  match j with
  | obj fields => .ok ((fields.lookup key).getD null)
  | null => .ok null
  | _ => .error .typeError305

/-- `value(key, default)`, with the conversion to the default's type. -/
def value {α : Type} (get : Json → Except Exception α) (j : Json) (key : String) (dflt : α) :
    Except Exception α :=
  match j with
  | obj fields =>
      match fields.lookup key with
      | some v => get v
      | none => .ok dflt
  | _ => .error .typeError306

/-! ## When a reader raises -/

/-- **A reader has read**: it has returned instead of raising. -/
def Reads {α : Type} (x : Except Exception α) : Prop := ∃ a, x = .ok a

@[simp] theorem reads_ok {α : Type} (a : α) : Reads (.ok a) := ⟨a, rfl⟩

@[simp] theorem not_reads_error {α : Type} (e : Exception) :
    ¬ Reads (.error e : Except Exception α) := by
  rintro ⟨a, h⟩
  cases h

@[simp] theorem reads_pure {α : Type} (a : α) : Reads (pure a : Except Exception α) := ⟨a, rfl⟩

/-- What is true of every value the rest of a reader yields is true of what
the reader yields. -/
theorem forall_ok_bind {ε α β : Type} {P : β → Prop} {x : Except ε α} {f : α → Except ε β}
    (h : ∀ a b, f a = .ok b → P b) : ∀ b, x >>= f = .ok b → P b := by
  intro b hb
  cases x with
  | error e => cases hb
  | ok a => exact h a b hb

/-- A sequence of readers reads when the first does and the rest then
does. -/
theorem reads_bind {α β : Type} {x : Except Exception α} {f : α → Except Exception β} :
    Reads (x >>= f) ↔ ∃ a, x = .ok a ∧ Reads (f a) := by
  cases x with
  | error e =>
      refine ⟨fun h => (not_reads_error e h).elim, ?_⟩
      rintro ⟨a, h, -⟩
      cases h
  | ok a =>
      refine ⟨fun h => ⟨a, rfl, h⟩, ?_⟩
      rintro ⟨_, ⟨⟩, h⟩
      exact h

/-- A list of readings reads when every one does. -/
theorem reads_mapM {α β : Type} {f : α → Except Exception β} {xs : List α} :
    Reads (xs.mapM f) ↔ ∀ x ∈ xs, Reads (f x) := by
  induction xs with
  | nil => simp
  | cons x xs ih =>
      rw [List.mapM_cons, reads_bind, List.forall_mem_cons, ← ih]
      constructor
      · rintro ⟨b, hb, hrest⟩
        obtain ⟨bs, hbs, -⟩ := reads_bind.1 hrest
        exact ⟨⟨b, hb⟩, bs, hbs⟩
      · rintro ⟨⟨b, hb⟩, bs, hbs⟩
        exact ⟨b, hb, reads_bind.2 ⟨bs, hbs, reads_pure _⟩⟩

theorem reads_getString {j : Json} : Reads j.getString ↔ j.isString = true := by
  cases j <;> simp [getString, isString]

theorem reads_getDouble {j : Json} : Reads j.getDouble ↔ j.isNumber = true := by
  cases j <;> simp [getDouble, isNumber]

theorem reads_getInt64 {j : Json} : Reads j.getInt64 ↔ j.isNumber = true := by
  cases j <;> simp [getInt64, isNumber]

/-- **When a look-up with a default raises.** The receiver is no object,
or the field is there and does not convert. -/
theorem reads_value {α : Type} {get : Json → Except Exception α} {j : Json} {key : String}
    {dflt : α} : Reads (j.value get key dflt) ↔
      j.isObject = true ∧ ∀ v, j.find? key = some v → Reads (get v) := by
  cases j with
  | obj fields =>
      cases h : fields.lookup key with
      | none => simp [value, isObject, find?, h]
      | some v => simp [value, isObject, find?, h]
  | _ => simp [value, isObject]

end Json

end WebhookTrader
