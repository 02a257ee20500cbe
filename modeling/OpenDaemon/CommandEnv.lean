import Mathlib.Logic.Function.Basic
import Mathlib.Tactic.Common

/-!
# The environment of a command

A command that is built up keeps what was set and removed, and whether the variables of
the parent were dropped. The environment of the child is what comes out of this against
the parent's. Each operation acts on it as an update of a partial function.
-/

namespace OpenDaemon

abbrev Environ (κ ν : Type*) := κ → Option ν

/-- `none` in `vars` leaves a variable as it is inherited, `some none` removes it. -/
structure CommandEnv (κ ν : Type*) where
  clear : Bool
  vars : κ → Option (Option ν)

namespace CommandEnv

variable {κ ν : Type*}

def new : CommandEnv κ ν := ⟨false, fun _ => none⟩

def envClear (_ : CommandEnv κ ν) : CommandEnv κ ν := ⟨true, fun _ => none⟩

def capture (command : CommandEnv κ ν) (inherited : Environ κ ν) : Environ κ ν := fun key =>
  (command.vars key).getD (if command.clear then none else inherited key)

variable (command : CommandEnv κ ν) (inherited source : Environ κ ν)

theorem capture_envClear (key : κ) : command.envClear.capture inherited key = none := rfl

variable [DecidableEq κ]

def env (command : CommandEnv κ ν) (key : κ) (value : ν) : CommandEnv κ ν :=
  { command with vars := Function.update command.vars key (some (some value)) }

/-- Nothing is left to remove once the inherited variables are dropped. -/
def envRemove (command : CommandEnv κ ν) (key : κ) : CommandEnv κ ν :=
  { command with
    vars := Function.update command.vars key (if command.clear then none else some none) }

def envRemoveAll (command : CommandEnv κ ν) (keys : List κ) : CommandEnv κ ν :=
  keys.foldl envRemove command

def envCopy (source : Environ κ ν) (command : CommandEnv κ ν) (key : κ) : CommandEnv κ ν :=
  match source key with
  | some value => command.env key value
  | none => command

def envCopyAll (source : Environ κ ν) (command : CommandEnv κ ν) (keys : List κ) :
    CommandEnv κ ν :=
  keys.foldl (envCopy source) command

theorem capture_env (key : κ) (value : ν) :
    (command.env key value).capture inherited =
      Function.update (command.capture inherited) key (some value) := by
  funext k
  by_cases hk : k = key
  · subst hk
    simp [capture, env]
  · have hvars : (command.env key value).vars k = command.vars k := Function.update_of_ne hk _ _
    rw [Function.update_of_ne hk, capture, hvars]
    rfl

theorem capture_envRemove (key : κ) :
    (command.envRemove key).capture inherited =
      Function.update (command.capture inherited) key none := by
  funext k
  by_cases hk : k = key
  · subst hk
    cases hclear : command.clear <;> simp [capture, envRemove, hclear]
  · have hvars : (command.envRemove key).vars k = command.vars k := Function.update_of_ne hk _ _
    rw [Function.update_of_ne hk, capture, hvars]
    rfl

theorem capture_envRemoveAll (keys : List κ) (k : κ) :
    (command.envRemoveAll keys).capture inherited k =
      if k ∈ keys then none else command.capture inherited k := by
  induction keys generalizing command with
  | nil => simp [envRemoveAll]
  | cons key keys ih =>
    rw [envRemoveAll, List.foldl_cons, ← envRemoveAll, ih, capture_envRemove]
    by_cases hk : k = key
    · simp [hk]
    · simp [hk]

theorem capture_envCopy (key k : κ) :
    (envCopy source command key).capture inherited k =
      if k = key then source k <|> command.capture inherited k
      else command.capture inherited k := by
  by_cases hk : k = key
  · subst hk
    cases hsource : source k with
    | none => simp [envCopy, hsource]
    | some value => simp [envCopy, hsource, capture_env]
  · cases hsource : source key with
    | none => simp [envCopy, hsource, hk]
    | some value => simp [envCopy, hsource, hk, capture_env]

theorem capture_envCopyAll (keys : List κ) (k : κ) :
    (envCopyAll source command keys).capture inherited k =
      if k ∈ keys then source k <|> command.capture inherited k
      else command.capture inherited k := by
  induction keys generalizing command with
  | nil => simp [envCopyAll]
  | cons key keys ih =>
    rw [envCopyAll, List.foldl_cons, ← envCopyAll, ih, capture_envCopy]
    by_cases hk : k = key
    · subst hk
      cases source k <;> simp
    · simp [hk]

end CommandEnv

end OpenDaemon
