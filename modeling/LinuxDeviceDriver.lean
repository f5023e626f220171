import LinuxDeviceDriver.Qemu.Pcie.BusyWrites
import LinuxDeviceDriver.Drivers.ByteDevice
import LinuxDeviceDriver.Drivers.EventProgress
import LinuxDeviceDriver.Drivers.Netdev.TxQueue
import LinuxDeviceDriver.Drivers.Netdev.Transmit
import LinuxDeviceDriver.Drivers.Netdev.RegularOrder
import LinuxDeviceDriver.Drivers.Netdev.Napi
import LinuxDeviceDriver.Qemu.Io.Keyboard
import LinuxDeviceDriver.Drivers.Scull.FileSize
import LinuxDeviceDriver.Drivers.Pipe.Wakeup
import LinuxDeviceDriver.Drivers.AsyncIo.Requests
import LinuxDeviceDriver.Drivers.Removal.Lifetime
import LinuxDeviceDriver.Qemu.Pcie.OnBoard
import LinuxDeviceDriver.Drivers.Memdisk.Setup
import LinuxDeviceDriver.Drivers.Netdev.Wire
import LinuxDeviceDriver.Qemu.Usb.Interval
import LinuxDeviceDriver.Drivers.DirtyPages
import LinuxDeviceDriver.Drivers.UsbSkel.Line
import LinuxDeviceDriver.Drivers.UsbSkel.Unplugged
import LinuxDeviceDriver.Drivers.UsbSkel.Consumption
import LinuxDeviceDriver.Drivers.Seeking
import LinuxDeviceDriver.Drivers.Scull.Unwritten
import LinuxDeviceDriver.Drivers.Poll.Flags
import LinuxDeviceDriver.Drivers.Replacement
import LinuxDeviceDriver.Drivers.Short.Failures
import LinuxDeviceDriver.Drivers.Short.Matrix
import LinuxDeviceDriver.Drivers.Short.ProbeIrq
import LinuxDeviceDriver.Drivers.TtyLines
import LinuxDeviceDriver.Qemu.Io.PanelPending
import LinuxDeviceDriver.Ds.Bitmap
import LinuxDeviceDriver.Ds.Llist
import LinuxDeviceDriver.Ds.Rbtree
import LinuxDeviceDriver.Drivers.ZeroCopy
import LinuxDeviceDriver.Qemu.Link
import LinuxDeviceDriver.Drivers.Jiq
import LinuxDeviceDriver.Drivers.Jit
import LinuxDeviceDriver.Drivers.Simple
