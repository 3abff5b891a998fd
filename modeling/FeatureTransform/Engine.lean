import FeatureTransform.Log

/-!
# Engines

What a session needs of an interpreter is four things: evaluate a text, look up a global, tell
whether a value can be called, call one with texts. An engine is those four over a state of its
own, which any of them may change; nothing is known of its values. `Engine.recorded` is any engine
that also keeps what it was asked, look-ups and questions included, so that a session can be held to
the order in which it asks.
-/

namespace FeatureTransform

/-- An interpreter with states `σ` and values `ν`. -/
structure Engine (σ ν : Type) where
  /-- runs a program text -/
  evaluate : String → σ → Except Failure Unit × σ
  /-- looks up the value of a global variable, if it has one -/
  global : String → σ → Except Failure (Option ν) × σ
  /-- tells whether a value can be called -/
  isCallable : ν → σ → Bool × σ
  /-- calls a value with texts; the result is a text or nothing -/
  call : ν → List String → σ → Except Failure (Option String) × σ

/-- Something that an engine was asked. -/
inductive Request (ν : Type) where
  /-- to run a program text -/
  | evaluate (text : String)
  /-- for the value of a global variable -/
  | global (name : String)
  /-- whether a value can be called -/
  | isCallable (value : ν)
  /-- to call a value with texts -/
  | call (value : ν) (arguments : List String)
deriving DecidableEq, Repr

namespace Engine

variable {σ ν α : Type}

/-- An answer of an engine, with the request kept behind those before it. -/
def keep (request : Request ν) (requests : List (Request ν)) (answer : α × σ) :
    α × σ × List (Request ν) := (answer.1, answer.2, requests ++ [request])

/-- The engine that does the same and keeps all requests, in order. -/
def recorded (engine : Engine σ ν) : Engine (σ × List (Request ν)) ν where
  evaluate text := fun (state, requests) =>
    keep (.evaluate text) requests (engine.evaluate text state)
  global name := fun (state, requests) => keep (.global name) requests (engine.global name state)
  isCallable value := fun (state, requests) =>
    keep (.isCallable value) requests (engine.isCallable value state)
  call value arguments := fun (state, requests) =>
    keep (.call value arguments) requests (engine.call value arguments state)

end Engine

end FeatureTransform
