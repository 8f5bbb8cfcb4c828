import PyBulletin.Foundation.Fueled
import PyBulletin.Store.Mail

set_option autoImplicit false

namespace PyBulletin.Store

open PyBulletin.Foundation

/-- `strftime("%y%m%d%H%M%S")` -/
def DateTime.stamp (date : DateTime) : Text :=
  padded 2 (date.year % 100) ++ padded 2 date.month ++ padded 2 date.day ++ padded 2 date.hour ++
    padded 2 date.minute ++ padded 2 date.second

namespace BBSStore

/-- The first part of a BID. -/
def bidBase (date : DateTime) (call : Text) : Text :=
  (Text.upper call).takeWhile (· ≠ '-') ++ date.stamp

def suffixed (base : Text) (suffix : Nat) : Text :=
  (base.take 10 ++ DateTime.padded 2 suffix).take 12

/-- `generate_bid`; the loop goes on for as long as the BIDs it tries are taken. -/
def generateBid (store : BBSStore) (date : DateTime) (call : Text) : Fueled Text :=
  let base := bidBase date call
  Fueled.loop (fun (suffix, bid) =>
    pure (if store.hasBid bid then .inl (suffix + 1, suffixed base (suffix + 1)) else .inr bid))
    (0, base.take 12)

end BBSStore

end PyBulletin.Store
