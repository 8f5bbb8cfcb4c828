import PyBulletin.Ax25.Stream
import PyBulletin.Transport.KissLink

set_option autoImplicit false

namespace PyBulletin.Transport.KissLink

open PyBulletin.Foundation
open PyBulletin.Foundation.LineEnds
open PyBulletin.Ax25 (AX25Address AX25Connection AX25Frame Link Side)
open PyBulletin.Ax25.AX25Reader (InOrder handedOn handedOn_flatten readlines readlines_handedOn
  streamLines drain_inOrder inOrder_handedOn)

/-! # What a terminal types

A terminal ends its lines with a CR.  The session at the other end reads them from the payloads
of its connection.
-/

section CarriageReturns

variable {text front back : Bytes} {payloads : List Bytes}

end CarriageReturns

variable {start final : Line}

private def typed : Line := (stations.step (.a, .write [76, 13])).getD stations

/-- The frame with the one line. -/
private def asked : Kiss.Frame :=
  kissFrame 0 (.iframe { callsign := "N0B" } { callsign := "N0A" } 0 0 [76, 13])

end PyBulletin.Transport.KissLink
