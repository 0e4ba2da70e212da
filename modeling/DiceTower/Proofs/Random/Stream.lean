/-
# The place of a request in the key stream

Every request moves the dealer on by one place in its key stream, whatever it
rolls and however many faces its generator draws or rejects. So the answer to an
order in a session depends on the order and on the number of orders before it,
refused ones included, and on nothing else (`Dealer.getElem?_serveAll`).

Key definition: `Dealer.after`.
Key theorem: `Dealer.getElem?_serveAll`.
-/
import DiceTower.Random.Dealer

namespace DiceTower

namespace Dealer

/-- The dealer after some more requests. -/
def after (n : Nat) (d : Dealer) : Dealer := { d with served := d.served + n }

theorem after_advance (n : Nat) (d : Dealer) : d.advance.after n = d.after (n + 1) := by
  unfold after advance
  congr 1
  show d.served + 1 + n = d.served + (n + 1)
  omega

/-- **An order is answered by its place.** In a session it gets the answer of
the dealer that has served as many orders as stand before it. -/
theorem getElem?_serveAll : ∀ (orders : List Order) (d : Dealer) (n : Nat),
    (serveAll orders d).1[n]? = orders[n]?.map fun order => (serve order (d.after n)).1
  | [], _, _ => rfl
  | order :: rest, d, 0 => rfl
  | order :: rest, d, n + 1 => by
    show (serveAll rest (serve order d).2).1[n]? = rest[n]?.map _
    rw [getElem?_serveAll rest, served_serve, after_advance]

end Dealer
end DiceTower
