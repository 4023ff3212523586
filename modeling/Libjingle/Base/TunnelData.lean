import Libjingle.Base.HttpsProxy
import Libjingle.Base.SocksProxy

/-!
# Data behind a proxy

Both proxy adapters keep the data of the tunnel through any reads, except for bytes
that `Recv` takes from its buffer before it asks an empty socket for more.
-/

namespace Libjingle.Base

open Libjingle.Std

theorem proxies_keep_tunnel_data {Γ : Type} (socks : SocksConfig) (https : HttpsConfig Γ)
    (steps : List ProxyStep) :
    (Along (ProxiedSocket.step socks.protocol) ProxiedSocket.Served socksStart steps →
      (socksStart.run socks.protocol steps).KeepsTunnelData socks.reader SocksState.up) ∧
    (Along (ProxiedSocket.step https.protocol) (fun c step => c.Served step ∧ c.Roomy step)
        (httpsStart https) steps →
      ((httpsStart https).run https.protocol steps).KeepsTunnelData https.reader HttpsProxy.up) :=
  ⟨socks_keepsTunnelData, https_keepsTunnelData⟩

/-- A proxy without authentication, and a destination. -/
def sampleSocks : SocksConfig := { host := .ip 7, port := 80, user := [], pass := [] }

def sampleHttps : HttpsConfig Unit where
  agent := []
  dest := []
  host := []
  port := 443
  forceConnect := false
  httpAuthenticate _ context := { result := .ignore, context, response := [], authMethod := [] }

/-- Both handshakes, with the first bytes of the tunnel behind the reply. -/
theorem proxies_keep_sample_data :
    (socksStart.run sampleSocks.protocol [.connectEvent, .arrive [5, 0], .readEvent 2,
      .arrive [5, 0, 0, 1, 1, 2, 3, 4, 0, 80, 11, 12], .readEvent 12, .arrive [13],
      .recv 10 10]).KeepsTunnelData sampleSocks.reader SocksState.up ∧
    ((httpsStart sampleHttps).run sampleHttps.protocol [.connectEvent,
      .arrive (ascii "HTTP/1.0 200 OK"), .readEvent 15, .arrive [13, 10, 13, 10, 11, 12],
      .readEvent 6, .arrive [13], .recv 10 10]).KeepsTunnelData sampleHttps.reader HttpsProxy.up :=
  ⟨(proxies_keep_tunnel_data sampleSocks sampleHttps _).1 (by decide),
    (proxies_keep_tunnel_data sampleSocks sampleHttps _).2 (by decide)⟩

/-- Two bytes behind the reply are taken from the buffer and lost: the first byte that
`Recv` reports is the third one of the tunnel. -/
theorem recv_loses_buffered_bytes :
    ¬ (socksStart.run sampleSocks.protocol [.connectEvent, .arrive [5, 0], .readEvent 2,
      .arrive [5, 0, 0, 1, 1, 2, 3, 4, 0, 80, 11, 12], .readEvent 12, .recv 10 10, .arrive [13],
      .recv 10 10]).KeepsTunnelData sampleSocks.reader SocksState.up := by
  intro keeps
  obtain ⟨rest, after, delivered, -⟩ := keeps (by decide)
  obtain rfl : rest = [11, 12, 13] := by
    have computed : some rest = some [11, 12, 13] := after.symm.trans (by decide)
    exact Option.some.inj computed
  revert delivered
  decide

end Libjingle.Base
