import GumstixExtras.Lib.BitPoly
import GumstixExtras.Lib.Buffer
import GumstixExtras.Lib.Numeral
import GumstixExtras.Lib.Strtol
import GumstixExtras.I2c.Crc8
import GumstixExtras.I2c.Division
import GumstixExtras.I2c.DumpMem
import GumstixExtras.I2c.Api
import GumstixExtras.I2c.Transfer
import GumstixExtras.I2c.Framing
import GumstixExtras.I2c.Reply
import GumstixExtras.I2c.Undetected
import GumstixExtras.I2c.Outcome
import GumstixExtras.I2c.LongReply
import GumstixExtras.I2c.Wrappers
import GumstixExtras.I2c.Parse
import GumstixExtras.I2c.Grammar
import GumstixExtras.Lib.Getopt
import GumstixExtras.I2c.Main
import GumstixExtras.I2c.Commands
import GumstixExtras.I2c.ExitStatus
import GumstixExtras.Lib.Shell
import GumstixExtras.I2c.PicodlpControl
import GumstixExtras.Lib.Memory
import GumstixExtras.Eeprom.Image
import GumstixExtras.Eeprom.UenvGenerator
import GumstixExtras.Eeprom.Interrupted
import GumstixExtras.Eeprom.Writeprom
import GumstixExtras.Lib.OutQueue
import GumstixExtras.Lib.Transducer
import GumstixExtras.Mavlink.Relay
import GumstixExtras.Mavlink.Isolation
import GumstixExtras.Mavlink.Frame
import GumstixExtras.Mavlink.SerialLine
import GumstixExtras.Lib.ForLoop
import GumstixExtras.Mavlink.ByteLoop
import GumstixExtras.Mavlink.UdpReceive
import GumstixExtras.Lib.Termios
import GumstixExtras.Mavlink.SetupPort
import GumstixExtras.Eeprom.Oversize
import GumstixExtras.Lib.Device
import GumstixExtras.Lib.Progress
import GumstixExtras.Lib.CString
import GumstixExtras.Lib.HexDump
import GumstixExtras.Lib.Atoi
import GumstixExtras.I2c.Session
import GumstixExtras.I2c.Trace
import GumstixExtras.I2c.TraceMain
import GumstixExtras.I2c.PicodlpSession
import GumstixExtras.Spidev.Text
import GumstixExtras.Spidev.Main
import GumstixExtras.Uart.Loopback
import GumstixExtras.Mavlink.Progress
import GumstixExtras.Mavlink.Startup
