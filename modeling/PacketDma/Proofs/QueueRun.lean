import PacketDma.WorkQueue

/-!
# Runs of a work queue

Posters, workers and the task that looks for work make requests of a queue, one after the other. A
list of requests leads to a queue and leaves a history, which tells for each request its answer and
the task that it woke.
-/

namespace PacketDma

namespace WorkQueue

/-- What is asked of a queue. -/
inductive Request where
  | openUp
  | close
  | post (channel : Nat) (work : Work)
  | enter
  | take
  | leave
  | poll (task : Nat)
  deriving DecidableEq

/-- The answer to a request. -/
inductive Answer where
  | silent
  | entered (inside : Bool)
  | taken (work : PendingWork)
  | polled (isReady : Bool)
  deriving DecidableEq

/-- What came of a request. -/
structure Turn where
  /-- What was asked. -/
  request : Request
  /-- The answer. -/
  answer : Answer
  /-- The task that was woken, if one was. -/
  woken : Option Nat
  deriving DecidableEq

/-- Makes a request. -/
def Request.perform (q : WorkQueue) : Request → Turn × WorkQueue
  | .openUp => (⟨.openUp, .silent, none⟩, q.openUp)
  | .close => (⟨.close, .silent, q.close.1⟩, q.close.2)
  | .post channel work =>
    (⟨.post channel work, .silent, (q.post channel work).1⟩, (q.post channel work).2)
  | .enter => (⟨.enter, .entered q.enter.1, none⟩, q.enter.2)
  | .take => (⟨.take, .taken q.take.1, none⟩, q.take.2)
  | .leave => (⟨.leave, .silent, none⟩, q.leave)
  | .poll task => (⟨.poll task, .polled (q.poll task).1, none⟩, (q.poll task).2)

/-- The queue after some requests. -/
def after (q : WorkQueue) (requests : List Request) : WorkQueue :=
  requests.foldl (fun q request => (request.perform q).2) q

/-- What came of some requests. -/
def history (q : WorkQueue) : List Request → List Turn
  | [] => []
  | request :: rest => (request.perform q).1 :: history (request.perform q).2 rest

variable {q : WorkQueue} {requests : List Request} {request : Request}

@[simp]
theorem after_nil (q : WorkQueue) : q.after [] = q := rfl

@[simp]
theorem after_cons (q : WorkQueue) (request : Request) (rest : List Request) :
    q.after (request :: rest) = (request.perform q).2.after rest := rfl

@[simp]
theorem after_concat (q : WorkQueue) (requests : List Request) (request : Request) :
    q.after (requests ++ [request]) = (request.perform (q.after requests)).2 := by
  rw [after, List.foldl_append]
  rfl

theorem history_concat (q : WorkQueue) (requests : List Request) (request : Request) :
    q.history (requests ++ [request]) =
      q.history requests ++ [(request.perform (q.after requests)).1] := by
  induction requests generalizing q with
  | nil => rfl
  | cons first rest ih =>
    show _ :: history _ (rest ++ [request]) = _ :: (history _ rest ++ _)
    rw [ih, after_cons]

/-- What every request keeps holds after every list of requests. -/
theorem after_keeps {Keeps : WorkQueue → Prop} (new : Keeps q)
    (step : ∀ q request, Keeps q → Keeps (Request.perform q request).2)
    (requests : List Request) : Keeps (q.after requests) := by
  induction requests generalizing q with
  | nil => exact new
  | cons request rest ih => exact ih (step q request new)

end WorkQueue

end PacketDma
