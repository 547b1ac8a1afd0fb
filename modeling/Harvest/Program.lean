/-! Programs that ask for what they cannot do themselves. A program is a tree: at each call it
waits for an answer and goes on with what it makes of it, and what a call means is decided by
whoever answers it.
-/

namespace Harvest

/-- The calls that a program can make, each with the type of its answers. -/
structure Signature where
  Call : Type
  Answer : Call → Type

/-- A program that makes calls and ends with a value. -/
inductive Program (S : Signature) (α : Type) where
  | done (value : α)
  | ask (call : S.Call) (next : S.Answer call → Program S α)

namespace Program

/-- The program that makes one call and ends with its answer. -/
def call {S : Signature} (c : S.Call) : Program S (S.Answer c) := ask c done

/-- A program, and then what is made of its value. -/
def bind {S : Signature} {α β : Type} (f : α → Program S β) : Program S α → Program S β
  | done value => f value
  | ask c next => ask c fun answer => bind f (next answer)

instance {S : Signature} : Monad (Program S) where
  pure := done
  bind p f := bind f p

/-- The program over a larger signature that makes the same calls there. -/
def embed {S T : Signature} {α : Type} (into : (c : S.Call) → Program T (S.Answer c))
    : Program S α → Program T α
  | done value => done value
  | ask c next => bind (fun answer => embed into (next answer)) (into c)

/-- The value of a program and the state that is left when one answerer, who keeps a state,
answers all its calls at once.
-/
def run {S : Signature} {α σ : Type} (answer : (c : S.Call) → σ → S.Answer c × σ)
    : Program S α → σ → α × σ
  | done value, state => (value, state)
  | ask c next, state =>
      let (reply, state) := answer c state
      run answer (next reply) state

end Program

end Harvest
