import FeatureTransform.Engine
import FeatureTransform.Feature.ReferenceSystem
import FeatureTransform.Program

/-!
# Sessions

A session is an engine that has evaluated a program and whose entry point and dispatcher can be
called. A script that holds an error, or whose values do not fit, never reaches the engine.
-/

namespace FeatureTransform

/-- A session with a script. The state of the engine is kept apart from it. -/
structure Session (σ ν : Type) where
  /-- the engine -/
  engine : Engine σ ν
  /-- the dispatcher, as a value of the engine -/
  dispatcher : ν
  /-- the reference system that the script sees -/
  target : ReferenceSystem
  /-- the id of the script -/
  scriptId : String

namespace Session

variable {σ ν : Type}

/-- A global that has to be there and to be callable, with the errors for one that is not there and
for one that cannot be called. -/
def findCallable (engine : Engine σ ν) (name : String) (missing uncallable : BuildError)
    (state : σ) : Except BuildError ν × σ :=
  match engine.global name state with
  | (.error e, state) => (.error (.engine e.message), state)
  | (.ok none, state) => (.error missing, state)
  | (.ok (some value), state) =>
    match engine.isCallable value state with
    | (true, state) => (.ok value, state)
    | (false, state) => (.error uncallable, state)

/-- The entry point. -/
def findEntryPoint (engine : Engine σ ν) : σ → Except BuildError ν × σ :=
  findCallable engine entryPoint .noEntryPoint .entryPointNotCallable

/-- The dispatcher, which the script may have overwritten. -/
def findDispatcher (engine : Engine σ ν) : σ → Except BuildError ν × σ :=
  findCallable engine dispatcherName .dispatcherOverwritten .dispatcherOverwritten

/-- The session with a script under given values, and the state in which building it leaves the
engine. -/
def build (script : Script) (bindings : Bindings) (target : ReferenceSystem)
    (engine : Engine σ ν) (state : σ) : Except BuildError (Session σ ν) × σ :=
  match script.error? with
  | some message => (.error (.invalidScript message), state)
  | none =>
    match Program.compose script bindings with
    | .error e => (.error e, state)
    | .ok text =>
      match engine.evaluate text state with
      | (.error e, state) => (.error (.evaluation e.message), state)
      | (.ok (), state) =>
        match findEntryPoint engine state with
        | (.error e, state) => (.error e, state)
        -- the entry point only has to be there: the dispatcher knows it by its name
        | (.ok _, state) =>
          match findDispatcher engine state with
          | (.error e, state) => (.error e, state)
          | (.ok dispatcher, state) =>
            let session : Session σ ν :=
              { engine := engine, dispatcher := dispatcher, target := target
                scriptId := script.id }
            (.ok session, state)

end Session

end FeatureTransform
