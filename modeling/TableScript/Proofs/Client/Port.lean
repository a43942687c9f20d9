import TableScript.Proofs.Client
import TableScript.Proofs.Decimal.Numeral
import TableScript.Proofs.Decimal.Truncation

/-!
# Ports

A port is given as an integer, a truth value, a number whose fraction is cut off, or a numeral.
Reading it has five outcomes: a blank port gives way to the default, one that stands for an integer
is that integer, an infinite one has no integer part, and any other is refused, provided that the
message of the refusal can be written.
-/

namespace TableScript

open Decimal

/-- The integer that a value stands for. Bytes are numerals if they spell one in ASCII. -/
inductive Value.StandsFor : Value → Int → Prop where
  | bool (b : Bool) : StandsFor (.bool b) (if b then 1 else 0)
  | int (n : Int) : StandsFor (.int n) n
  | zero {x : Float} {negative : Bool} (h : FloatValue.ofFloat x = .zero negative) :
      StandsFor (.float x) 0
  | finite {x : Float} {negative : Bool} {b : Binary}
      (h : FloatValue.ofFloat x = .finite negative b) :
      StandsFor (.float x) (if negative then -⌊b.value⌋ else ⌊b.value⌋)
  | text {s : String} {n : Int} (h : Numeral s.toList n) : StandsFor (.text s) n
  | bytes {bs : List UInt8} {n : Int} (h : Numeral (Client.asciiText bs).toList n) :
      StandsFor (.bytes bs) n

/-- The value stands for no integer. -/
def Value.Numberless (v : Value) : Prop := ∀ n, ¬ v.StandsFor n

theorem Value.standsFor_text {s : String} {n : Int} :
    (Value.text s).StandsFor n ↔ Numeral s.toList n :=
  ⟨fun h => by cases h; assumption, .text⟩

namespace Client

/-- The outcomes of reading a port. -/
inductive PortReading (d : Dialect) (default : Int) (v : Value) : Except Failure Int → Prop where
  | blank (hblank : v.isBlank = true) : PortReading d default v (.ok default)
  | number {n : Int} (hblank : v.isBlank = false) (h : v.StandsFor n) :
      PortReading d default v (.ok n)
  | infinite (h : isInfinite v = true) : PortReading d default v (.error .infiniteNumber)
  | refused (hblank : v.isBlank = false) (hfinite : isInfinite v = false) (h : v.Numberless)
      (hwritable : v.isWritable = true) :
      PortReading d default v (.error (.connection (.badPort d v)))
  | unwritable (hblank : v.isBlank = false) (hfinite : isInfinite v = false) (h : v.Numberless)
      (hwritable : v.isWritable = false) : PortReading d default v (.error .impossibleValue)

variable {v : Value} {n : Int}

theorem portNumber?_eq_some : portNumber? v = some n ↔ v.StandsFor n := by
  constructor
  · intro h
    cases v with
    | bool b =>
        cases h
        exact .bool b
    | int i =>
        cases h
        exact .int n
    | float x =>
        simp only [portNumber?] at h
        cases hx : FloatValue.ofFloat x with
        | undefined => rw [hx] at h; cases h
        | infinite negative => rw [hx] at h; cases h
        | zero negative =>
            rw [hx] at h
            cases h
            exact .zero hx
        | finite negative b =>
            rw [hx, FloatValue.truncate?_finite] at h
            cases h
            exact .finite hx
    | text s => exact .text (readIntegerIn?_eq_some.1 h)
    | bytes bs => exact .bytes (readIntegerIn?_eq_some.1 h)
    | _ => cases h
  · intro h
    cases h with
    | bool b => rfl
    | int => rfl
    | zero h => rw [portNumber?, h, FloatValue.truncate?]
    | finite h => rw [portNumber?, h, FloatValue.truncate?_finite]
    | text h => exact readIntegerIn?_eq_some.2 h
    | bytes h => exact readIntegerIn?_eq_some.2 h

theorem portNumber?_eq_none : portNumber? v = none ↔ v.Numberless := by
  rw [Option.eq_none_iff_forall_ne_some]
  exact forall_congr' fun n => not_congr portNumber?_eq_some

/-- An information separator is blank but no margin of a numeral. -/
example : (Value.text "\x1f5").Numberless := portNumber?_eq_none.1 (by decide +kernel)

theorem readPort_reading (d : Dialect) (default : Int) (v : Value) :
    PortReading d default v (readPort d default v) := by
  unfold readPort
  cases hblank : v.isBlank with
  | true => exact .blank hblank
  | false =>
      cases hinfinite : isInfinite v with
      | true => exact .infinite hinfinite
      | false =>
          cases hn : portNumber? v with
          | some n => exact .number hblank (portNumber?_eq_some.1 hn)
          | none =>
              have h := portNumber?_eq_none.1 hn
              cases hwritable : v.isWritable with
              | true =>
                  have hcheck : requireWritable [v] = .ok () :=
                    requireWritable_eq_ok.2 (by simpa using hwritable)
                  rw [hcheck]
                  exact .refused hblank hinfinite h hwritable
              | false =>
                  have hcheck : requireWritable [v] = .error .impossibleValue :=
                    requireWritable_eq_error.2 ⟨by simpa using hwritable, rfl⟩
                  rw [hcheck]
                  exact .unwritable hblank hinfinite h hwritable

/-- An infinite number is neither blank nor an integer. -/
theorem numberless_of_isInfinite (h : isInfinite v = true) : v.isBlank = false ∧ v.Numberless := by
  cases v with
  | float x =>
      refine ⟨rfl, portNumber?_eq_none.1 ?_⟩
      simp only [isInfinite] at h
      rw [portNumber?]
      cases hx : FloatValue.ofFloat x with
      | infinite negative => rfl
      | _ => rw [hx] at h; cases h
  | _ => cases h

theorem isInfinite_of_isBlank (h : v.isBlank = true) : isInfinite v = false := by
  by_contra hinfinite
  rw [(numberless_of_isInfinite (Bool.of_not_eq_false hinfinite)).1] at h
  cases h

theorem isInfinite_of_standsFor (h : v.StandsFor n) : isInfinite v = false := by
  by_contra hinfinite
  exact (numberless_of_isInfinite (Bool.of_not_eq_false hinfinite)).2 n h

/-- A value stands for one integer at most. -/
theorem standsFor_unique {m : Int} (hm : v.StandsFor m) (hn : v.StandsFor n) : m = n :=
  Option.some.inj ((portNumber?_eq_some.2 hm).symm.trans (portNumber?_eq_some.2 hn))

/-- The integer that a value stands for can be written if the value can. -/
theorem isWritable_of_standsFor (h : v.StandsFor n) :
    (Value.int n).isWritable = v.isWritable := by
  have hshort : (Nat.toDigits 10 n.natAbs).length ≤ digitLimit → (Value.int n).isWritable = true :=
    fun hlength => by rw [Value.isWritable_int, decide_eq_true hlength]
  cases h with
  | bool b => cases b <;> rfl
  | int => rfl
  | @zero x negative h =>
      exact hshort (FloatValue.length_truncate (x := x) (by rw [h, FloatValue.truncate?]))
  | @finite x negative b h =>
      exact hshort (FloatValue.length_truncate (x := x) (by rw [h, FloatValue.truncate?_finite]))
  | text h => exact hshort h.length_le
  | bytes h => exact hshort h.length_le

end Client

end TableScript
