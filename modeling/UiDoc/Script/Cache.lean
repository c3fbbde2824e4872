import UiDoc.Script.Program

/-!
# Keeping compiled scripts

A script is compiled when it is first used; what cannot be compiled is remembered as well.
-/

namespace UiDoc.Script

/-- The outcomes of compiling the scripts used so far, by their texts. -/
structure Cache where
  programs : Record (Option Program) := []

namespace Cache

/-- The number of scripts. -/
def size (cache : Cache) : Nat :=
  cache.programs.length

/-- Whether no script has been used. -/
def isEmpty (cache : Cache) : Bool :=
  cache.programs.isEmpty

/-- The outcome of compiling a script, and the cache that knows it. -/
def program (cache : Cache) (source : String) : Option Program × Cache :=
  match cache.programs.find? source with
  | some known => (known, cache)
  | none =>
      let compiled := Program.compile? source
      (compiled, ⟨cache.programs.insert source compiled⟩)

/-- Runs a script; `none` if it cannot be compiled or run. -/
def evaluate (cache : Cache) (source : String) (scope : Scope) (args : List Value) :
    Option Value × Cache :=
  let (compiled, cache) := cache.program source
  (compiled.bind fun program => program.run? scope args, cache)

end Cache

end UiDoc.Script
