import Mustache.Program

/-! Caches of compiled programs. Each keeps a log of what it was asked for and given. -/
namespace Mustache

inductive CachePolicy
  /-- Keeps the first program stored under each key. -/
  | memory
  | none
  /-- Keeps the first program stored at all and answers with it whatever the key. -/
  | pinned
  deriving DecidableEq, Repr

inductive CacheEvent
  | hit (key : Key)
  | miss (key : Key)
  | store (key : Key)
  deriving DecidableEq

structure Cache where
  policy : CachePolicy
  programs : List (Key × Program) := []
  /-- The events so far, the last one first. -/
  log : List CacheEvent := []
  deriving DecidableEq

namespace Cache

def find? (key : Key) (cache : Cache) : Option Program :=
  match cache.policy with
  | .memory => Entries.get? key cache.programs
  | .none => .none
  | .pinned => cache.programs.head?.map (·.2)

def load (key : Key) (cache : Cache) : Option Program × Cache :=
  match cache.find? key with
  | some program => (some program, { cache with log := .hit key :: cache.log })
  | none => (none, { cache with log := .miss key :: cache.log })

def kept (key : Key) (program : Program) (cache : Cache) : List (Key × Program) :=
  match cache.policy with
  | .memory =>
    if Entries.has key cache.programs then cache.programs else Entries.put key program cache.programs
  | .none => cache.programs
  | .pinned => if cache.programs.isEmpty then [(key, program)] else cache.programs

def store (key : Key) (program : Program) (cache : Cache) : Cache :=
  { cache with programs := cache.kept key program, log := .store key :: cache.log }

end Cache
end Mustache
