import Mathlib.Data.List.Basic

/-!
# Event emitters

An emitter holds the listeners that were registered for its events, in the order
of their registration. The same listener may be registered more than once. An
emission calls the listeners that are registered when it begins, also those that a
listener before them removes.
-/
namespace BrightCli.Lib

structure EventEmitter (ε l : Type) where
  registrations : List (ε × l)
  deriving DecidableEq, Repr

namespace EventEmitter

variable {ε l : Type}

def new : EventEmitter ε l := ⟨[]⟩

def on (emitter : EventEmitter ε l) (event : ε) (listener : l) : EventEmitter ε l :=
  ⟨emitter.registrations ++ [(event, listener)]⟩

def removeAllListeners (_ : EventEmitter ε l) : EventEmitter ε l := ⟨[]⟩

variable [DecidableEq ε]

def listeners (emitter : EventEmitter ε l) (event : ε) : List l :=
  (emitter.registrations.filter fun registration => registration.1 = event).map Prod.snd

/-- The emission of an event, for what a call of a listener does to a state. -/
def emit {σ : Type} (emitter : EventEmitter ε l) (event : ε) (call : σ → l → σ) (s : σ) : σ :=
  (emitter.listeners event).foldl call s

@[simp] theorem listeners_new (event : ε) : (new : EventEmitter ε l).listeners event = [] := rfl

@[simp] theorem listeners_removeAllListeners (emitter : EventEmitter ε l) (event : ε) :
    emitter.removeAllListeners.listeners event = [] := rfl

end EventEmitter

end BrightCli.Lib
