import TableScript.Failure

/-!
# Databases named by values

A database may be handed over as itself or by name. Everything else is refused, and the refusal
keeps the value as it was given. Its wording has the value in it, so a value that cannot be written
fails as such instead.
-/

namespace TableScript.Dialect

def ofValue : Value → Except Failure Dialect
  | .dialect d => .ok d
  | .text s =>
    match ofText? s with
    | some d => .ok d
    | none => .error (.unsupportedDialect (.text s))
  | v => do
    requireWritable [v]
    .error (.unsupportedDialect v)

@[simp] theorem ofValue_dialect (d : Dialect) : ofValue (.dialect d) = .ok d := rfl

theorem ofValue_text (s : String) :
    ofValue (.text s) =
      match ofText? s with
      | some d => .ok d
      | none => .error (.unsupportedDialect (.text s)) := rfl

/-- A value that is refused is told of as it was given, if it can be written. -/
theorem ofValue_error {v : Value} {e : Failure} (h : ofValue v = .error e) :
    e = if v.isWritable then .unsupportedDialect v else .impossibleValue := by
  cases v with
  | dialect d => cases h
  | text s =>
      rw [ofValue_text] at h
      cases hs : ofText? s with
      | some d => simp [hs] at h
      | none => simpa [hs, eq_comm] using h
  | _ =>
      simp only [ofValue, requireWritable, List.all_cons, List.all_nil, Bool.and_true] at h
      split at h <;> simp_all [bind, Except.bind]

theorem ofValue_of_not_writable {v : Value} (h : v.isWritable = false) :
    ofValue v = .error .impossibleValue := by
  cases v with
  | dialect d => cases h
  | text s => cases h
  | _ => simp [ofValue, requireWritable, h, bind, Except.bind]

end TableScript.Dialect
