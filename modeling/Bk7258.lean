import Bk7258.Amp.Client
import Bk7258.Amp.Conserve
import Bk7258.Audio.RingBuff
import Bk7258.BkIpc.Progress
import Bk7258.BkIpc.Results
import Bk7258.DrvModel.Dev
import Bk7258.EasyLog.Output
import Bk7258.Flash.Erase
import Bk7258.Flash.Perm
import Bk7258.Flash.Read
import Bk7258.Ipc.Response
import Bk7258.Kfifo.UartDma
import Bk7258.Mailbox.Completion
import Bk7258.Mailbox.Mbox0Link
import Bk7258.MbIpc.Notify
import Bk7258.MbIpc.Paths
import Bk7258.MbIpc.Payload
import Bk7258.MbIpc.Release
import Bk7258.MbIpc.Reopen
import Bk7258.MbIpc.Room
import Bk7258.MbIpc.Slots
import Bk7258.Otp.Lock
import Bk7258.Pm.Query
import Bk7258.Pm.Votes
import Bk7258.Psram.Strcat
import Bk7258.Rtc.TimeOfDay
import Bk7258.Rtos.Event
import Bk7258.Rtos.Hisr
import Bk7258.Rtos.Producers
import Bk7258.Rtos.Semaphore
import Bk7258.SpiFlash.Erase
import Bk7258.SpiFlash.QspiWrite
import Bk7258.Tools.BekenUtils.MergedParts
import Bk7258.Tools.CrcLayout
import Bk7258.Tools.Format
import Bk7258.Tools.HdrMacros
import Bk7258.Tools.RamRegion
import Bk7258.Uart.Flow
import Bk7258.Uart.Rts
import Bk7258.Uart.Wakeup
import Bk7258.Wdrv.Node
