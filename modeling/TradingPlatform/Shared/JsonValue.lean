-- Python values and their JSON texts. The strings of a dict that the source writes are texts;
-- what is read back of a value has its surrogates joined and its keys once.
import TradingPlatform.Shared.JsonDumps
import TradingPlatform.Shared.Schemas

namespace trading_platform.shared

/-! ## Texts and dicts -/

/-- A text of the source. -/
def py_text (s : String) : PyStr := py_str s.toList

def py_dict (fields : List (String × PyJson)) : PyJson :=
  .dict (fields.map fun f => (py_text f.1, f.2))

theorem code_point_inj {c d : Char} (h : code_point c = code_point d) : c = d := by
  have hval : (code_point c).1 = (code_point d).1 := by rw [h]
  exact Char.toNat_inj.mp hval

@[simp] theorem py_text_inj {a b : String} : py_text a = py_text b ↔ a = b := by
  constructor
  · intro h
    exact String.toList_injective (List.map_injective_iff.mpr (fun _ _ => code_point_inj) h)
  · rintro rfl
    rfl

@[simp] theorem rejoined_py_text (s : String) : rejoined (py_text s) = py_text s :=
  joined_of_joined (joined_py_str s.toList)

@[simp] theorem writable_py_dict {fields : List (String × PyJson)} :
    Writable (py_dict fields) ↔ ∀ f ∈ fields, Writable f.2 := by
  have hfields : ∀ fields : List (String × PyJson),
      WritableFields (fields.map fun f => (py_text f.1, f.2)) ↔ ∀ f ∈ fields, Writable f.2 := by
    intro fields
    induction fields with
    | nil => simp [WritableFields]
    | cons f fields ih => rw [List.map_cons, WritableFields, ih, List.forall_mem_cons]
  exact hfields fields

@[simp] theorem writable_list {items : List PyJson} :
    Writable (.list items) ↔ ∀ v ∈ items, Writable v := by
  have hitems : ∀ items, WritableItems items ↔ ∀ v ∈ items, Writable v := by
    intro items
    induction items with
    | nil => simp [WritableItems]
    | cons v items ih => rw [WritableItems, ih, List.forall_mem_cons]
  exact hitems items

@[simp] theorem writable_str (s : PyStr) : Writable (.str s) := trivial

@[simp] theorem writable_bool (b : Bool) : Writable (.bool b) := trivial

/-- What is read of a dict whose keys are texts of the source. -/
theorem read_py_dict (fields : List (String × PyJson)) (h : (fields.map (·.1)).Nodup) :
    build (join (py_dict fields)) = py_dict (fields.map fun f => (f.1, build (join f.2))) := by
  have hjoin : ∀ fields : List (String × PyJson),
      join_fields (fields.map fun f => (py_text f.1, f.2)) =
        fields.map fun f => (py_text f.1, join f.2) := by
    intro fields
    induction fields with
    | nil => rfl
    | cons f fields ih => simp [join_fields, ih]
  have hkeys : ((fields.map fun f => (py_text f.1, join f.2)).map (·.1)).Nodup := by
    have hmap : (fields.map fun f => (py_text f.1, join f.2)).map (·.1) =
        (fields.map (·.1)).map py_text := by simp
    rw [hmap]
    exact h.map fun _ _ => py_text_inj.mp
  unfold py_dict
  rw [join, hjoin, build_dict hkeys]
  simp

theorem lookup_py_dict (key : String) (fields : List (String × PyJson)) :
    PyJson.lookup key (fields.map fun f => (py_text f.1, f.2)) =
      (fields.reverse.find? (·.1 = key)).map (·.2) := by
  have hkey : ∀ f : String × PyJson, (py_text f.1 = py_str key.toList) = (f.1 = key) :=
    fun _ => propext py_text_inj
  rw [PyJson.lookup, ← List.map_reverse, List.find?_map, Option.map_map]
  simp only [Function.comp_def, hkey]

/-- What is read back of a value that can be written. -/
def read_back (v : PyJson) : PyJson := build (join v)

theorem read_back_of_json {body : PyJson} {request : List Char}
    (h : json_loads request = .ok body) : Writable body ∧ read_back body = body := by
  obtain ⟨hloaded, hdistinct⟩ := of_json_loads h
  obtain ⟨hwritable, hjoin⟩ := writable_of_loaded body hloaded
  refine ⟨hwritable, ?_⟩
  rw [read_back, hjoin, build_of_distinct body hdistinct]

/-! ## Values of the services -/

/-- The text of a string. Where it has a lone surrogate, the text has a replacement character. -/
def py_shown (s : PyStr) : String := String.ofList (s.map fun p => (char_of p).getD '\ufffd')

mutual

def to_json : PyJson → Json
  | .null => .null
  | .bool b => .bool b
  | .int n => .num (String.ofList (dumps_int n))
  | .float x => .num (String.ofList (dumps_float x))
  | .str s => .str (py_shown s)
  | .list items => .arr (to_json_items items)
  | .dict fields => .obj (to_json_fields fields)

def to_json_items : List PyJson → List Json
  | [] => []
  | v :: vs => to_json v :: to_json_items vs

def to_json_fields : List (PyStr × PyJson) → List (String × Json)
  | [] => []
  | (key, v) :: fields => (py_shown key, to_json v) :: to_json_fields fields

end

/-- `json.loads` of the gateway. -/
def loads_json (data : String) : Except PyErr Json := (json_loads data.toList).map to_json

mutual

/-- The value of a JSON text; a number is kept as its text. -/
def of_json : Json → PyJson
  | .null => .null
  | .bool b => .bool b
  | .num n => match json_loads n.toList with
    | .ok v => v
    | .error _ => .null
  | .str s => .str (py_text s)
  | .arr items => .list (of_json_items items)
  | .obj fields => .dict (of_json_fields fields)

def of_json_items : List Json → List PyJson
  | [] => []
  | v :: vs => of_json v :: of_json_items vs

def of_json_fields : List (String × Json) → List (PyStr × PyJson)
  | [] => []
  | (key, v) :: fields => (py_text key, of_json v) :: of_json_fields fields

end

@[simp] theorem py_shown_text (s : String) : py_shown (py_text s) = s := by
  have hmap : (py_text s).map (fun p => (char_of p).getD '\ufffd') = s.toList := by
    simp [py_text, py_str, Function.comp_def]
  rw [py_shown, hmap, String.ofList_toList]

theorem to_json_py_dict (fields : List (String × PyJson)) :
    to_json (py_dict fields) = .obj (fields.map fun f => (f.1, to_json f.2)) := by
  have hfields : ∀ fields : List (String × PyJson),
      to_json_fields (fields.map fun f => (py_text f.1, f.2)) = fields.map fun f => (f.1, to_json f.2) := by
    intro fields
    induction fields with
    | nil => rfl
    | cons f fields ih => simp [to_json_fields, ih]
  unfold py_dict
  rw [to_json, hfields]

end trading_platform.shared
