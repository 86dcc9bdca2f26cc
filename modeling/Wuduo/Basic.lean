import Mathlib.Data.List.Basic

/-!
# Bytes, and calls that do not return

The vocabulary shared by all models: byte strings, string literals as byte
strings, and the ways in which a call of the modelled code can fail to return to
its caller.

The code is built with its assertions enabled, so a false assertion ends the
process.  `Assertion` lists the assertions of the modelled functions that are
about values; those of the form `assert_in_loop_thread()` are not among them,
since the models let only the owning loop thread run such a function.
-/

namespace Wuduo

/-- A byte string: `std::string`, `std::string_view`, or a range of `char`. -/
abbrev Bytes := List UInt8

/-- The bytes of a string literal, in the encoding of the source files. -/
def bytes (s : String) : Bytes := s.toList.flatMap String.utf8EncodeChar

/-- The `"\r\n"` between the lines of a request. -/
def crlf : Bytes := [13, 10]

/-- What a function reads that is handed a pointer to these bytes: those up to the first
NUL. -/
def cString (s : Bytes) : Bytes := s.takeWhile (· ≠ 0)

/-- The decimal numeral of a number. -/
def decimal (n : Nat) : Bytes := (Nat.toDigits 10 n).map fun c ↦ c.toNat.toUInt8

/-- The assertions of the modelled functions. -/
inductive Assertion where
  /-- `Buffer::retrieve`: `count <= readable_bytes()` -/
  | retrieve
  /-- `Buffer::has_written`: `count <= writable_bytes()` -/
  | hasWritten
  /-- `Buffer::unwrite`: `count <= readable_bytes()` -/
  | unwrite
  /-- `Buffer::prepend`: `count <= prependable_bytes()` -/
  | prepend
  /-- `Buffer::ensure_writable_bytes`: `writable_bytes() >= count` -/
  | ensureWritableBytes
  /-- `Epoller::ctl_op_from`: `!channel->has_none_events()` -/
  | ctlOpFrom
  /-- `Epoller::set_state_in_interest_list`: the operation fits the channel -/
  | setStateInInterestList
  /-- `Channel::~Channel`: `!in_interest_list_` -/
  | channelDestructor
  /-- `TcpConnection::established`: `state_ == kConnecting` -/
  | established
  /-- `TcpConnection::handle_close`: connected or disconnecting -/
  | handleClose
  /-- `TcpServer::new_connection`: the connection was inserted -/
  | inserted
  /-- `TcpServer::remove_connection`: `num_erased == 1` -/
  | numErased
  /-- `EventLoopThread::start`: `!started_` -/
  | started
  /-- `RequestLine::from`: a byte follows the space behind the method -/
  | spaceAfterMethod
  /-- `RequestLine::from`: a byte follows the space behind the target -/
  | spaceAfterUrl
  /-- `HttpContext::parse_request`: a byte follows the request line -/
  | requestLineReadable
  /-- `HttpContext::parse_request`: the header line and its line end are there -/
  | headerLineReadable
  /-- `HttpContext::parse_request`: the blank line is at the front -/
  | blankLine
  /-- `HttpResponse::analyse`: the body has the size `fstat` reported -/
  | bodySize
deriving DecidableEq, Repr

/-- Why a call did not return to its caller. -/
inductive NoReturn where
  /-- An assertion was false. -/
  | assertion (a : Assertion)
  /-- `std::length_error` was thrown, and nothing catches it. -/
  | lengthError
  /-- A `std::thread` was destroyed while joinable. -/
  | joinable
  /-- The call was still reading a file when the given read results were used up. -/
  | stillReading
deriving DecidableEq, Repr

@[simp] theorem ok_bind {α β : Type} (a : α) (f : α → Except NoReturn β) :
    (Except.ok a >>= f) = f a := rfl

@[simp] theorem error_bind {α β : Type} (e : NoReturn) (f : α → Except NoReturn β) :
    (Except.error e >>= f) = Except.error e := rfl

@[simp] theorem pure_eq_ok {α : Type} (a : α) : (pure a : Except NoReturn α) = Except.ok a := rfl

@[simp] theorem map_ok {α β : Type} (f : α → β) (a : α) :
    (Except.ok a : Except NoReturn α).map f = Except.ok (f a) := rfl

@[simp] theorem map_error {α β : Type} (f : α → β) (e : NoReturn) :
    (Except.error e : Except NoReturn α).map f = Except.error e := rfl

/-- Two calls in a row return when both do. -/
theorem bind_eq_ok {α β : Type} {x : Except NoReturn α} {f : α → Except NoReturn β} {b : β} :
    (x >>= f) = .ok b ↔ ∃ a, x = .ok a ∧ f a = .ok b := by
  cases x with
  | error e => exact ⟨fun h ↦ (by cases h), fun ⟨_, h, _⟩ ↦ (by cases h)⟩
  | ok a => exact ⟨fun h ↦ ⟨a, rfl, h⟩, fun ⟨_, h, hf⟩ ↦ Except.ok.inj h ▸ hf⟩

/-- A call whose result is passed on returns when it does. -/
theorem map_eq_ok {α β : Type} {x : Except NoReturn α} {f : α → β} {b : β} :
    x.map f = .ok b ↔ ∃ a, x = .ok a ∧ f a = b := by
  cases x with
  | error e => exact ⟨fun h ↦ (by cases h), fun ⟨_, h, _⟩ ↦ (by cases h)⟩
  | ok a =>
      refine ⟨fun h ↦ ⟨a, rfl, Except.ok.inj h⟩, ?_⟩
      rintro ⟨_, h, hf⟩
      cases h
      exact congrArg _ hf

/-- Finds the result of a call that returns by evaluating it. -/
theorem exists_ok {α : Type*} (call : Except NoReturn α) (p : α → Bool)
    (h : call.toOption.any p = true) : ∃ a, call = .ok a ∧ p a = true := by
  cases call with
  | error e => cases h
  | ok a => exact ⟨a, rfl, h⟩

end Wuduo
