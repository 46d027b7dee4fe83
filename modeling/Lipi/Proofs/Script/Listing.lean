/-
What a listing shows.

A listing shows no places. It shows what a loop was written as and the name of its guard,
so it takes more than the bare form, but no more than a script without its places
(`Command.listing_unplaced`). Lowering programs that are the same but for places, after
equally many guards, therefore leads to equal listings (`Script.listing_eq`).
-/
import Lipi.Proofs.Script.Bare
import Lipi.Script.Listing

set_option autoImplicit false

namespace Lipi

/-- A loop's control without its place. -/
def LoopControl.unplaced (c : LoopControl) : LoopControl := { c with place := .nowhere }

/-- Without places, what is seen of a loop depends on the number of guards made before. -/
theorem Lowering.overlooks_unplaced : Overlooks (fun n m => n = m) LoopControl.unplaced where
  next h := congrArg (· + 1) h
  loop h _ _ _ _ _ := by
    rw [h]
    rfl

theorem listedOpening_seen (view : LoopControl → LoopControl) (initial : Option Command) :
    listedOpening (initial.map (Command.seen view)) = listedOpening initial := by
  cases initial with
  | none => rfl
  | some c =>
    cases c with
    | loop control initial body => cases initial <;> rfl
    | _ => rfl

theorem LoopControl.header_unplaced (control : LoopControl) (initial : Option Command) :
    control.unplaced.header (initial.map (Command.seen unplaced)) = control.header initial := by
  unfold header
  rw [listedOpening_seen]
  rfl

mutual

/-- **A listing shows no places.** -/
theorem Command.listing_unplaced (c : Command) (depth : Nat) :
    (c.seen LoopControl.unplaced).listing depth = c.listing depth := by
  match c with
  | .declare _ _ _ _ => rfl
  | .assign _ _ _ => rfl
  | .capture _ _ => rfl
  | .choice _ chain => exact chain.listing_unplaced depth "if"
  | .loop control initial body =>
    rw [Command.seen_loop, Command.listing, Command.listing, control.header_unplaced,
      Command.listingAll_unplaced body]
    rfl
  | .breakLoop => rfl
  | .continueLoop => rfl
  | .eval _ _ => rfl
termination_by structural c

/-- The same for a chain. -/
theorem CommandChain.listing_unplaced (c : CommandChain) (depth : Nat) (word : String) :
    (c.seen LoopControl.unplaced).listing depth word = c.listing depth word := by
  match c with
  | .test condition body rest =>
    rw [CommandChain.seen, CommandChain.listing, CommandChain.listing,
      Command.listingAll_unplaced body, rest.listing_unplaced]
  | .otherwise body =>
    rw [CommandChain.seen, CommandChain.listing, CommandChain.listing,
      Command.listingAll_unplaced body]
  | .done => rfl
termination_by structural c

/-- The same for a row of commands. -/
theorem Command.listingAll_unplaced (cs : List Command) (depth : Nat) :
    Command.listingAll depth (Command.seenAll LoopControl.unplaced cs)
      = Command.listingAll depth cs := by
  match cs with
  | [] => rfl
  | c :: cs =>
    rw [Command.seenAll, Command.listingAll, Command.listingAll, c.listing_unplaced,
      Command.listingAll_unplaced cs]
termination_by structural cs

end

/-- Scripts that are the same but for places have the same listing. -/
theorem Script.listing_eq {a b : Script}
    (h : Command.seenAll LoopControl.unplaced a.body = Command.seenAll LoopControl.unplaced b.body) :
    a.listing = b.listing := by
  rw [listing, listing, listingLines, listingLines, ← Command.listingAll_unplaced a.body, h,
    Command.listingAll_unplaced]

end Lipi
