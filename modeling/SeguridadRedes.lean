import SeguridadRedes.C.Process
import SeguridadRedes.C.Loop
import SeguridadRedes.C.Buffer
import SeguridadRedes.C.Hex
import SeguridadRedes.C.Source
import SeguridadRedes.Crypto.Hmac
import SeguridadRedes.Crypto.StreamingHash
import SeguridadRedes.Programs.Events
import SeguridadRedes.Programs.Feed
import SeguridadRedes.Practica2.HmacSha1
import SeguridadRedes.Practica2.ReadKey
import SeguridadRedes.Practica2.Message
import SeguridadRedes.Crypto.Sha
import SeguridadRedes.Practica2.Run
import SeguridadRedes.Practica2.Correctness
import SeguridadRedes.Practica2.Faults
import SeguridadRedes.Crypto.Base64
import SeguridadRedes.Crypto.Pkcs1
import SeguridadRedes.Practica3.Sign
import SeguridadRedes.Practica3.Block
import SeguridadRedes.Practica3.Stages
import SeguridadRedes.Practica3.ReadSignature
import SeguridadRedes.Practica3.Arguments
import SeguridadRedes.Practica3.Signing
import SeguridadRedes.Practica3.Verifying
import SeguridadRedes.Practica3.Binding
import SeguridadRedes.Practica3.Completeness
import SeguridadRedes.Practica3.Hashing
import SeguridadRedes.Practica3.Openings
import SeguridadRedes.C.Machine
import SeguridadRedes.C.Slots
import SeguridadRedes.OpenVpn.ControlChannel
import SeguridadRedes.OpenVpn.ControlCompletion
import SeguridadRedes.OpenVpn.Timers
import SeguridadRedes.OpenVpn.TcpTunnel
import SeguridadRedes.OpenVpn.FragmentDelivery
import SeguridadRedes.C.LinkedTree
import SeguridadRedes.C.Treap
import SeguridadRedes.OpenVpn.Schedule
import SeguridadRedes.OpenVpn.ScheduleLinks
import SeguridadRedes.OpenVpn.ScheduleWindow
import SeguridadRedes.OpenVpn.PoolServer
