import TableScript.Dialect.OfValue
import TableScript.Grammar

/-!
# Registered grammars

Generic databases look up their grammar in a registry. Its order is the order of first registration;
registering a database again changes the grammar and keeps the place. A registry may hold grammars
of any kind; the usual ones are those of `Grammar`.
-/

namespace TableScript

structure Registry (γ : Type := Grammar) where
  entries : List (Dialect × γ)

namespace Registry

variable {γ : Type}

def standard : Registry where
  entries :=
    [(.postgresql, .postgresql), (.cockroachdb, .postgresql), (.redshift, .redshift),
     (.mysql, .mysql), (.mariadb, .mysql), (.tidb, .mysql), (.sqlite, .sqlite),
     (.libsql, .sqlite), (.sqlserver, .sqlserver), (.oracle, .oracle)]

def dialects (r : Registry γ) : List Dialect := r.entries.map (·.1)

def find? (r : Registry γ) (d : Dialect) : Option γ := r.entries.lookup d

def putEntry (d : Dialect) (g : γ) : List (Dialect × γ) → List (Dialect × γ)
  | [] => [(d, g)]
  | (d', g') :: rest => if d' = d then (d, g) :: rest else (d', g') :: putEntry d g rest

def register (r : Registry γ) (dialect : Value) (g : γ) : Except Failure (Registry γ) := do
  let d ← Dialect.ofValue dialect
  if d.isGeneric then return ⟨putEntry d g r.entries⟩
  else .error (.specializedGrammar d)

def unregister (r : Registry γ) (d : Dialect) : Registry γ := ⟨r.entries.filter (·.1 != d)⟩

def grammar (r : Registry γ) (dialect : Value) : Except Failure γ := do
  let d ← Dialect.ofValue dialect
  match r.find? d with
  | some g => return g
  | none => .error (.unsupportedDialect (.text d.name))

/-- Whether a database has a grammar. An unsupported one has none; other failures remain. -/
def supports (r : Registry γ) (dialect : Value) : Except Failure Bool :=
  match Dialect.ofValue dialect with
  | .ok d => .ok (r.find? d).isSome
  | .error (.unsupportedDialect _) => .ok false
  | .error e => .error e

end Registry

end TableScript
