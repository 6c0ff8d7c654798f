import LinuxChat.Lib.Framing
import Mathlib.Data.List.TakeWhile

/-!
# Values shared by the server modules

JSON values and the one accessor the server reads them with
(server/third_party/nlohmann/json.hpp:22776-22792), the exceptions that reach
server code, C strings, and hexadecimal text. A `std::string` that comes from
JSON is valid UTF-8, so it is a `String` here; its `size()` is
`String.utf8ByteSize`, and the character U+0000 is its only zero octet.
-/

namespace LinuxChat.Source

/-- A JSON value. A number that is not an integer is `mantissa * 10 ^ exponent`. -/
inductive Json where
  | null
  | boolean (value : Bool)
  | number (value : Int)
  | float (mantissa exponent : Int)
  | string (value : String)
  | array (items : List Json)
  | object (fields : List (String × Json))

/-- Exceptions by class; nlohmann's carry their numeric id. -/
inductive Exn where
  | typeError (id : Nat)
  | outOfRange (id : Nat)
  | runtimeError (what : String)
  deriving DecidableEq, Repr

/-- `msg.value(key, default)` at type `std::string`: 306 when the receiver is
not an object, 302 when the key is present with a value of another kind. -/
def Json.value (msg : Json) (key default : String) : Except Exn String :=
  match msg with
  | .object fields =>
    match fields.lookup key with
    | some (.string found) => .ok found
    | some _ => .error (.typeError 302)
    | none => .ok default
  | _ => .error (.typeError 306)

/-- The octets of a `std::string` up to its first NUL: what `c_str()` hands to a
C interface that takes no length. -/
def cString (s : String) : String :=
  String.ofList (s.toList.takeWhile (· ≠ '\x00'))

/-- Lowercase hexadecimal text, two digits for each octet. -/
def hexChars (octets : List UInt8) : List Char :=
  octets.flatMap fun b => [Nat.digitChar (b.toNat / 16), Nat.digitChar (b.toNat % 16)]

/-- The digits of `octets`, two for each. -/
def hex (octets : List UInt8) : String :=
  String.ofList (hexChars octets)

/-! ## C strings -/

theorem cString_toList (s : String) : (cString s).toList = s.toList.takeWhile (· ≠ '\x00') := by
  simp [cString]

/-- A string without NUL is its own C string. -/
theorem cString_eq_self {s : String} (h : '\x00' ∉ s.toList) : cString s = s := by
  apply String.toList_injective
  rw [cString_toList, List.takeWhile_eq_self_iff]
  intro c hc
  have : c ≠ '\x00' := fun same => h (same ▸ hc)
  simpa using this

theorem nul_notMem_cString (s : String) : '\x00' ∉ (cString s).toList := by
  rw [cString_toList]
  intro h
  have := List.mem_takeWhile_imp h
  simp at this

theorem cString_eq_iff (s : String) : cString s = s ↔ '\x00' ∉ s.toList := by
  constructor
  · intro whole
    rw [← whole]
    exact nul_notMem_cString s
  · exact cString_eq_self

@[simp] theorem cString_cString (s : String) : cString (cString s) = cString s :=
  cString_eq_self (nul_notMem_cString s)

/-! ## Hexadecimal text -/

theorem digitChar_mem {n : Nat} (h : n < 16) :
    Nat.digitChar n ∈ "0123456789abcdef".toList := by
  revert n
  decide

theorem digitChar_inj {m n : Nat} (hm : m < 16) (hn : n < 16)
    (h : Nat.digitChar m = Nat.digitChar n) : m = n := by
  have table : ∀ m < 16, ∀ n < 16, Nat.digitChar m = Nat.digitChar n → m = n := by decide
  exact table m hm n hn h

theorem hexChars_length (octets : List UInt8) :
    (hexChars octets).length = 2 * octets.length := by
  induction octets with
  | nil => rfl
  | cons b rest ih =>
    simp only [hexChars, List.flatMap_cons, List.length_append, List.length_cons,
      List.length_nil] at ih ⊢
    omega

theorem mem_hexChars {octets : List UInt8} {c : Char} (h : c ∈ hexChars octets) :
    c ∈ "0123456789abcdef".toList := by
  simp only [hexChars, List.mem_flatMap] at h
  obtain ⟨b, _, hc⟩ := h
  have hb := b.toNat_lt
  simp only [List.mem_cons, List.not_mem_nil, or_false] at hc
  rcases hc with rfl | rfl
  · exact digitChar_mem (by omega)
  · exact digitChar_mem (by omega)

theorem hexChars_injective {xs ys : List UInt8} (h : hexChars xs = hexChars ys) : xs = ys := by
  induction xs generalizing ys with
  | nil =>
    have hlen := congrArg List.length h
    rw [hexChars_length, hexChars_length] at hlen
    rw [List.length_nil] at hlen
    exact (List.eq_nil_of_length_eq_zero (by omega)).symm
  | cons x xs ih =>
    cases ys with
    | nil =>
      have hlen := congrArg List.length h
      rw [hexChars_length, hexChars_length] at hlen
      simp at hlen
    | cons y ys =>
      have hx := x.toNat_lt
      have hy := y.toNat_lt
      simp only [hexChars, List.flatMap_cons, List.cons_append, List.nil_append,
        List.cons.injEq] at h
      obtain ⟨high, low, rest⟩ := h
      have hhigh := digitChar_inj (by omega) (by omega) high
      have hlow := digitChar_inj (by omega) (by omega) low
      have hxy : x = y := UInt8.toNat_inj.mp (by omega)
      rw [hxy, ih rest]

theorem hex_injective {xs ys : List UInt8} (h : hex xs = hex ys) : xs = ys := by
  apply hexChars_injective
  simpa [hex] using congrArg String.toList h

end LinuxChat.Source
